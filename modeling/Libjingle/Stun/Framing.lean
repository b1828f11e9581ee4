import Libjingle.Stun.Message

/-!
# The attribute area of a STUN message

Main results: **`read_framed_iff_honest`**, **`framing_broken`**.
-/

variable {rest buf id area : List Uint8} {kind : MessageClass} {rounds : List Round} {length : Uint16}
  {valueType : StunAttributeValueType} {round : Round} {value : StunValue} {msg : StunMessage}

namespace Libjingle

open Lib StunMessage

/-! ## What an attribute takes -/

theorem readAddress_prefixed (length : Uint16) : Prefixed (readAddress length) := by
  unfold readAddress
  refine (Prefixed.word 1).bind fun _ => (Prefixed.word 1).bind fun family =>
    (Prefixed.word 2).bind fun port => ?_
  refine .ite (.ite .fail ?_) (.ite (.ite .fail ?_) .fail)
  · exact (Prefixed.word 4).bind fun addr => .pure _
  · exact (Prefixed.word 16).bind fun addr => .pure _

theorem readXorAddress_prefixed (id : List Uint8) (length : Uint16) : Prefixed (readXorAddress id length) := by
  unfold readXorAddress
  exact (readAddress_prefixed length).bind fun addr => .pure _

theorem readTypes_prefixed (n : ℕ) : Prefixed (readTypes n) := by
  induction n with
  | zero => exact .pure _
  | succ n ih => exact (Prefixed.word 2).bind fun attr => ih.bind fun types => .pure _

/-- A value is read from its own bytes. -/
theorem readBody_prefixed (id : List Uint8) (valueType : StunAttributeValueType) (length : Uint16) :
    Prefixed (readBody id valueType length) := by
  unfold readBody
  cases valueType with
  | unknown => exact .fail
  | address => exact (readAddress_prefixed length).bind fun addr => .pure _
  | xorAddress => exact (readXorAddress_prefixed id length).bind fun addr => .pure _
  | uint32 => exact (Prefixed.word 4).bind fun bits => .pure _
  | uint64 => exact (Prefixed.word 8).bind fun bits => .pure _
  | byteString => exact (Prefixed.bytes length.toNat).bind fun bytes => .pure _
  | errorCode =>
    exact .ite .fail ((Prefixed.word 4).bind fun val =>
      (Prefixed.bytes (length.toNat - 4)).bind fun reason => .pure _)
  | uint16List =>
    exact .ite .fail ((readTypes_prefixed (length.toNat / 2)).bind fun types => .pure _)

def bodyLength (valueType : StunAttributeValueType) (length : Uint16) : Uint16 :=
  match valueType with
  | .uint32 => 4
  | .uint64 => 8
  | _ => length

theorem length_of_takeWord {n : ℕ} {v : BitVec (8 * n)}
    (h : takeWord n buf = some (v, rest)) : buf.length = n + rest.length := by
  rw [takeWord_eq_some.mp h, List.length_append, length_wordBytes]

theorem length_of_readTypes {n : ℕ} {types : List Uint16}
    (h : readTypes n buf = some (types, rest)) : buf.length = n * 2 + rest.length := by
  induction n generalizing buf types with
  | zero =>
    cases h
    omega
  | succ n ih =>
    obtain ⟨⟨attr, buf₁⟩, h₁, h⟩ := Option.bind_eq_some_iff.mp h
    obtain ⟨⟨types', buf₂⟩, h₂, h⟩ := Option.bind_eq_some_iff.mp h
    cases h
    have := length_of_takeWord h₁
    have := ih h₂
    omega

theorem length_of_readAddress {addr : SocketAddress} (h : readAddress length buf = some (addr, rest)) :
    buf.length = length.toNat + rest.length ∧ (length = 8 ∨ length = 20) := by
  obtain ⟨⟨x, buf₁⟩, h₁, h⟩ := Option.bind_eq_some_iff.mp h
  obtain ⟨⟨family, buf₂⟩, h₂, h⟩ := Option.bind_eq_some_iff.mp h
  obtain ⟨⟨port, buf₃⟩, h₃, h⟩ := Option.bind_eq_some_iff.mp h
  have hlen₁ := length_of_takeWord h₁
  have hlen₂ := length_of_takeWord h₂
  have hlen₃ := length_of_takeWord h₃
  simp only at h
  split_ifs at h with hf hl hf' hl'
  · obtain ⟨⟨v, buf₄⟩, h₄, h⟩ := Option.bind_eq_some_iff.mp h
    cases h
    have := length_of_takeWord h₄
    rw [not_not] at hl
    subst hl
    exact ⟨by change _ = 8 + buf₄.length; omega, .inl rfl⟩
  · obtain ⟨⟨v, buf₄⟩, h₄, h⟩ := Option.bind_eq_some_iff.mp h
    cases h
    have := length_of_takeWord h₄
    rw [not_not] at hl'
    subst hl'
    exact ⟨by change _ = 20 + buf₄.length; omega, .inr rfl⟩

theorem length_of_readBody (h : readBody id valueType length buf = some (value, rest)) :
    buf.length = (bodyLength valueType length).toNat + rest.length := by
  unfold readBody at h
  cases valueType with
  | unknown => cases h
  | address =>
    obtain ⟨⟨addr, buf₁⟩, h₁, h⟩ := Option.bind_eq_some_iff.mp h
    cases h
    exact (length_of_readAddress h₁).1
  | xorAddress =>
    obtain ⟨⟨addr, buf₁⟩, h₁, h⟩ := Option.bind_eq_some_iff.mp h
    cases h
    obtain ⟨⟨addr', buf₂⟩, h₂, h₁⟩ := Option.bind_eq_some_iff.mp h₁
    cases h₁
    exact (length_of_readAddress h₂).1
  | uint32 =>
    obtain ⟨⟨bits, buf₁⟩, h₁, h⟩ := Option.bind_eq_some_iff.mp h
    cases h
    exact length_of_takeWord h₁
  | uint64 =>
    obtain ⟨⟨bits, buf₁⟩, h₁, h⟩ := Option.bind_eq_some_iff.mp h
    cases h
    exact length_of_takeWord h₁
  | byteString =>
    obtain ⟨⟨bytes, buf₁⟩, h₁, h⟩ := Option.bind_eq_some_iff.mp h
    cases h
    obtain ⟨rfl, hlen⟩ := takeBytes_eq_some.mp h₁
    rw [List.length_append, hlen]
    rfl
  | errorCode =>
    simp only at h
    split_ifs at h with hmin
    obtain ⟨⟨val, buf₁⟩, h₁, h⟩ := Option.bind_eq_some_iff.mp h
    obtain ⟨⟨reason, buf₂⟩, h₂, h⟩ := Option.bind_eq_some_iff.mp h
    cases h
    have hlen₁ := length_of_takeWord h₁
    obtain ⟨rfl, hlen₂⟩ := takeBytes_eq_some.mp h₂
    rw [List.length_append] at hlen₁
    have hge : 4 ≤ length.toNat := by bv_omega
    change _ = length.toNat + buf₂.length
    omega
  | uint16List =>
    simp only at h
    split_ifs at h with hodd
    obtain ⟨⟨types, buf₁⟩, h₁, h⟩ := Option.bind_eq_some_iff.mp h
    cases h
    have hlen₁ := length_of_readTypes h₁
    change _ = length.toNat + buf₁.length
    omega

/-- The padding of a body, or there is not enough left for it. -/
def IsPadding (length : Uint16) (pad rest : List Uint8) : Prop :=
  pad.length = paddingLength length ∨ (pad = [] ∧ rest.length < paddingLength length)

theorem consumePadding_eq :
    consumePadding length buf = rest ↔ ∃ pad, buf = pad ++ rest ∧ IsPadding length pad rest := by
  unfold consumePadding consumeBytes IsPadding
  constructor
  · rintro rfl
    by_cases hgt : paddingLength length > buf.length
    · rw [if_pos hgt]
      exact ⟨[], rfl, .inr ⟨rfl, hgt⟩⟩
    · rw [if_neg hgt]
      refine ⟨buf.take (paddingLength length), (List.take_append_drop _ _).symm, .inl ?_⟩
      rw [List.length_take]
      omega
  · rintro ⟨pad, rfl, hpad | ⟨rfl, hshort⟩⟩
    · rw [if_neg (by rw [List.length_append]; omega), ← hpad]
      simp
    · rw [List.nil_append, if_pos hshort]
      rfl

theorem paddingLength_lt (length : Uint16) : paddingLength length < 4 := by
  unfold paddingLength
  split_ifs <;> omega

theorem paddingLength_mod (length : Uint16) : (length.toNat + paddingLength length) % 4 = 0 := by
  unfold paddingLength
  split_ifs <;> omega

theorem paddingLength_of_not_isPadded (h : readBody id valueType length buf = some (value, rest))
    (hpad : valueType.isPadded = false) : paddingLength (bodyLength valueType length) = 0 := by
  cases valueType with
  | unknown => cases h
  | address =>
    obtain ⟨⟨addr, buf₁⟩, h₁, -⟩ := Option.bind_eq_some_iff.mp h
    rcases (length_of_readAddress h₁).2 with rfl | rfl <;> decide
  | xorAddress =>
    obtain ⟨⟨addr, buf₁⟩, h₁, -⟩ := Option.bind_eq_some_iff.mp h
    obtain ⟨⟨addr', buf₂⟩, h₂, -⟩ := Option.bind_eq_some_iff.mp h₁
    rcases (length_of_readAddress h₂).2 with rfl | rfl <;> decide
  | uint32 => exact (by decide : paddingLength 4 = 0)
  | uint64 => exact (by decide : paddingLength 8 = 0)
  | byteString => cases hpad
  | errorCode => cases hpad
  | uint16List => cases hpad

/-- When a value is read, with its padding. -/
theorem readValue_eq_some :
    readValue id valueType length buf = some (value, rest) ↔
      ∃ x pad, buf = x ++ (pad ++ rest) ∧ readBody id valueType length x = some (value, []) ∧
        IsPadding (bodyLength valueType length) pad rest := by
  unfold readValue
  have hbody : ∀ {x : List Uint8}, valueType.isPadded = true → bodyLength valueType length = length := by
    intro x hp
    cases valueType <;> first | rfl | cases hp
  constructor
  · intro h
    obtain ⟨⟨v, buf₁⟩, h₁, h⟩ := Option.bind_eq_some_iff.mp h
    obtain ⟨rfl, hrest⟩ := Prod.mk.inj (Option.some.inj h)
    obtain ⟨x, rfl, hx⟩ := (readBody_prefixed id valueType length _ _ _).mp h₁
    by_cases hp : valueType.isPadded = true
    · rw [if_pos hp] at hrest
      obtain ⟨pad, rfl, hpad⟩ := consumePadding_eq.mp hrest
      exact ⟨x, pad, rfl, hx, by rw [hbody (x := x) hp]; exact hpad⟩
    · rw [if_neg hp] at hrest
      rw [Bool.not_eq_true] at hp
      subst hrest
      exact ⟨x, [], rfl, hx, .inl (paddingLength_of_not_isPadded hx hp).symm⟩
  · rintro ⟨x, pad, rfl, hx, hpad⟩
    rw [(readBody_prefixed id valueType length).append hx]
    by_cases hp : valueType.isPadded = true
    · rw [hbody (x := x) hp] at hpad
      simp only [Option.bind_eq_bind, Option.bind_some, if_pos hp,
        consumePadding_eq.mpr ⟨pad, rfl, hpad⟩]
    · rw [Bool.not_eq_true] at hp
      have hz := paddingLength_of_not_isPadded hx hp
      have hnil : pad = [] := by
        rcases hpad with hlen | ⟨rfl, -⟩
        · exact List.eq_nil_of_length_eq_zero (hlen.trans hz)
        · rfl
      simp only [Option.bind_eq_bind, Option.bind_some, hp, hnil, List.nil_append,
        Bool.false_eq_true, if_false]

/-! ## The loop -/

theorem length_readUInt16 {v : Uint16} (h : readUInt16 buf = some (v, rest)) : buf = writeUInt16 v ++ rest :=
  takeWord_eq_some.mp h

@[simp] theorem length_writeUInt16 (v : Uint16) : (writeUInt16 v).length = 2 := length_wordBytes 2 v

/-- What a round of the loop takes after the header. -/
def TakesBody (kind : MessageClass) (id : List Uint8) (round : Round) (body rest : List Uint8) : Prop :=
  let valueType := kind.getAttributeValueType round.type
  if valueType = .unknown then body.length = (skipLength round.length).toNat ∧ round.attr = none
  else ∃ value x pad, body = x ++ pad ∧ readBody id valueType round.length x = some (value, []) ∧
    IsPadding (bodyLength valueType round.length) pad rest ∧ round.attr = some ⟨round.type, value⟩

theorem consumeBytes_eq_some {size : ℕ} :
    consumeBytes buf size = some rest ↔ ∃ x, buf = x ++ rest ∧ x.length = size := by
  unfold consumeBytes
  constructor
  · intro h
    split_ifs at h with hgt
    cases h
    exact ⟨buf.take size, (List.take_append_drop _ _).symm, by rw [List.length_take]; omega⟩
  · rintro ⟨x, rfl, rfl⟩
    rw [if_neg (by rw [List.length_append]; omega), List.drop_left]

theorem readRound_eq_some :
    readRound kind id buf = some (round, rest) ↔
      ∃ body, buf = writeUInt16 round.type ++ writeUInt16 round.length ++ body ++ rest ∧
        round.size = 4 + body.length ∧ TakesBody kind id round body rest := by
  obtain ⟨type, length, attr, size⟩ := round
  unfold readRound TakesBody
  simp only [Option.bind_eq_bind, Option.bind_eq_some_iff, Prod.exists]
  constructor
  · rintro ⟨type', buf₁, h₁, length', buf₂, h₂, h⟩
    have hbuf : buf = writeUInt16 type' ++ writeUInt16 length' ++ buf₂ := by
      rw [length_readUInt16 h₁, length_readUInt16 h₂, List.append_assoc]
    split at h
    · next hvt =>
      simp only [Option.bind_eq_some_iff] at h
      obtain ⟨rest', h₃, h⟩ := h
      obtain ⟨heq, rfl⟩ := Prod.mk.inj (Option.some.inj h)
      injection heq with ht hl ha hs
      subst ht hl ha hs
      obtain ⟨body, rfl, hlen⟩ := consumeBytes_eq_some.mp h₃
      refine ⟨body, by rw [hbuf, List.append_assoc _ body], ?_, ?_⟩
      · simp only [hbuf, List.length_append, length_writeUInt16]
        omega
      · rw [if_pos hvt]
        exact ⟨hlen, rfl⟩
    · next hvt =>
      simp only [Option.bind_eq_some_iff, Prod.exists] at h
      obtain ⟨value, rest', h₃, h⟩ := h
      obtain ⟨heq, rfl⟩ := Prod.mk.inj (Option.some.inj h)
      injection heq with ht hl ha hs
      subst ht hl ha hs
      obtain ⟨x, pad, rfl, hx, hpad⟩ := readValue_eq_some.mp h₃
      refine ⟨x ++ pad, by rw [hbuf]; simp only [List.append_assoc], ?_, ?_⟩
      · simp only [hbuf, List.length_append, length_writeUInt16]
        omega
      · rw [if_neg hvt]
        exact ⟨value, x, pad, rfl, hx, hpad, rfl⟩
  · rintro ⟨body, rfl, rfl, h⟩
    refine ⟨type, writeUInt16 length ++ (body ++ rest), takeWord_eq_some.mpr ?_, length, body ++ rest,
      takeWord_eq_some.mpr rfl, ?_⟩
    · simp only [List.append_assoc]
      rfl
    · have hsize : (writeUInt16 type ++ writeUInt16 length ++ body ++ rest).length - rest.length =
          4 + body.length := by
        simp only [List.length_append, length_writeUInt16]
        omega
      split
      · next hvt =>
        rw [if_pos hvt] at h
        obtain ⟨hlen, rfl⟩ := h
        rw [consumeBytes_eq_some.mpr ⟨body, rfl, hlen⟩, Option.bind_some, hsize]
      · next hvt =>
        rw [if_neg hvt] at h
        obtain ⟨value, x, pad, rfl, hx, hpad, rfl⟩ := h
        rw [readValue_eq_some.mpr ⟨x, pad, List.append_assoc .., hx, hpad⟩, Option.bind_some, hsize]

/-- The loop of `Read` as a relation: the rounds that take the whole area. -/
inductive Rounds (kind : MessageClass) (id : List Uint8) : List Round → List Uint8 → Prop where
  | nil : Rounds kind id [] []
  | cons {round : Round} {rounds : List Round} {buf rest : List Uint8} :
      readRound kind id buf = some (round, rest) → Rounds kind id rounds rest →
      Rounds kind id (round :: rounds) buf

theorem length_of_readRound (h : readRound kind id buf = some (round, rest)) :
    buf.length = round.size + rest.length ∧ 4 ≤ round.size := by
  obtain ⟨body, rfl, hsize, -⟩ := readRound_eq_some.mp h
  simp only [List.length_append, length_writeUInt16]
  omega

theorem rounds_nil_iff : Rounds kind id rounds [] ↔ rounds = [] := by
  constructor
  · intro h
    cases h with
    | nil => rfl
    | cons hr _ =>
      have := length_of_readRound hr
      simp only [List.length_nil] at this
      omega
  · rintro rfl
    exact .nil

/-- **The loop reads the area if it is made of rounds**. -/
theorem readLoop_eq_some {fuel : ℕ} (hfuel : area.length ≤ fuel) :
    readLoop kind id 0 fuel area = some (rounds, rest) ↔ Rounds kind id rounds area ∧ rest = [] := by
  have hnil : ∀ rounds : List Round,
      some ([], []) = some (rounds, rest) ↔ Rounds kind id rounds [] ∧ rest = [] := by
    intro rounds
    rw [rounds_nil_iff, Option.some.injEq, Prod.mk.injEq, eq_comm, eq_comm (a := [])]
  induction fuel generalizing area rounds with
  | zero =>
    obtain rfl : area = [] := List.eq_nil_of_length_eq_zero (by omega)
    exact hnil rounds
  | succ fuel ih =>
    unfold readLoop
    by_cases hpos : area.length > 0
    · simp only [if_pos hpos, Option.bind_eq_bind, Option.bind_eq_some_iff, Prod.exists]
      constructor
      · rintro ⟨round, buf, hr, rounds', rest', hl, h⟩
        cases h
        have := length_of_readRound hr
        obtain ⟨hrounds, rfl⟩ := (ih (by omega)).mp hl
        exact ⟨.cons hr hrounds, rfl⟩
      · rintro ⟨h, rfl⟩
        cases h with
        | nil => exact absurd hpos (by simp)
        | cons hr hrounds =>
          have := length_of_readRound hr
          exact ⟨_, _, hr, _, [], (ih (by omega)).mpr ⟨hrounds, rfl⟩, rfl⟩
    · obtain rfl : area = [] := List.eq_nil_of_length_eq_zero (by omega)
      rw [if_neg hpos]
      exact hnil rounds

def readTransactionId (magicCookie transactionId : List Uint8) : List Uint8 :=
  if BitVec.ofNat 32 (beValue magicCookie) ≠ kStunMagicCookie then magicCookie ++ transactionId
  else transactionId

theorem readHeader_eq_some {type : Uint16} :
    readHeader buf = some (type, length, id, area) ↔
      ∃ magicCookie transactionId : List Uint8,
        buf = writeUInt16 type ++ writeUInt16 length ++ magicCookie ++ transactionId ++ area ∧
        magicCookie.length = 4 ∧ transactionId.length = 12 ∧ type &&& 0x8000 = 0 ∧
        length.toNat = area.length ∧ id = readTransactionId magicCookie transactionId := by
  unfold readHeader
  constructor
  · intro h
    simp only [Option.bind_eq_bind, Option.bind_eq_some_iff, Prod.exists] at h
    obtain ⟨type', buf₁, h₁, h⟩ := h
    split_ifs at h with hbit
    simp only [Option.bind_eq_some_iff, Prod.exists] at h
    obtain ⟨length', buf₂, h₂, cookie, buf₃, h₃, tid, buf₄, h₄, h⟩ := h
    obtain ⟨rfl, hc⟩ := takeBytes_eq_some.mp h₃
    obtain ⟨rfl, ht⟩ := takeBytes_eq_some.mp h₄
    change (if length'.toNat ≠ buf₄.length then none
      else some (type', length', readTransactionId cookie tid, buf₄)) = _ at h
    split_ifs at h with hlen
    simp only [Option.some.injEq, Prod.mk.injEq] at h
    obtain ⟨rfl, rfl, rfl, rfl⟩ := h
    refine ⟨cookie, tid, ?_, hc, ht, not_not.mp hbit, not_not.mp hlen, rfl⟩
    rw [length_readUInt16 h₁, length_readUInt16 h₂]
    simp only [List.append_assoc]
  · rintro ⟨cookie, tid, rfl, hc, ht, hbit, hlen, rfl⟩
    simp only [List.append_assoc, readUInt16, writeUInt16, takeWord_append, readBytes,
      takeBytes_append hc, takeBytes_append ht, Option.bind_eq_bind, Option.bind_some, hbit, hlen,
      ne_eq, not_true, if_false, readTransactionId]

theorem readRounds_eq_some :
    readRounds kind buf = some (msg, rounds, rest) ↔
      ∃ area, readHeader buf = some (msg.type, msg.length, msg.transactionId, area) ∧
        Rounds kind msg.transactionId rounds area ∧ msg.kind = kind ∧
        msg.attrs = rounds.filterMap Round.attr ∧ rest = [] := by
  unfold readRounds
  simp only [Option.bind_eq_bind, Option.bind_eq_some_iff, Prod.exists]
  have harea : ∀ {type length : Uint16} {id area : List Uint8},
      readHeader buf = some (type, length, id, area) → area.length - length.toNat = 0 := by
    intro type length id area h
    obtain ⟨-, -, -, -, -, -, hlen, -⟩ := readHeader_eq_some.mp h
    omega
  constructor
  · rintro ⟨type, length, id, area, hh, rounds', rest', hl, h⟩
    simp only [Option.some.injEq, Prod.mk.injEq] at h
    obtain ⟨rfl, rfl, rfl⟩ := h
    rw [harea hh] at hl
    obtain ⟨hrounds, rfl⟩ := (readLoop_eq_some (Nat.le_refl _)).mp hl
    exact ⟨area, hh, hrounds, rfl, rfl, rfl⟩
  · rintro ⟨area, hh, hrounds, rfl, hattrs, rfl⟩
    refine ⟨_, _, _, _, hh, rounds, [], ?_, ?_⟩
    · rw [harea hh]
      exact (readLoop_eq_some (Nat.le_refl _)).mpr ⟨hrounds, rfl⟩
    · rw [← hattrs]

/-! ## Types, lengths and values -/

/-- An attribute as it stands in a packet. -/
structure Tlv where
  type : Uint16
  length : Uint16
  value : List Uint8
  length_value : value.length = length.toNat

/-- The area is the attributes one after the other, padded. -/
inductive Tiles : List Tlv → List Uint8 → Prop where
  | nil : Tiles [] []
  | cons {tlv : Tlv} {tlvs : List Tlv} {pad rest : List Uint8} :
      pad.length = paddingLength tlv.length ∨ (pad = [] ∧ rest = []) → Tiles tlvs rest →
      Tiles (tlv :: tlvs)
        (writeUInt16 tlv.type ++ writeUInt16 tlv.length ++ (tlv.value ++ pad) ++ rest)

namespace Tlv

variable (kind : MessageClass)

/-- The message class knows the type. -/
def isKnown (tlv : Tlv) : Bool := kind.getAttributeValueType tlv.type ≠ .unknown

/-- The attribute that exactly the bytes of the value stand for. -/
def decode (id : List Uint8) (tlv : Tlv) : Option StunAttribute :=
  (readBody id (kind.getAttributeValueType tlv.type) tlv.length tlv.value).bind fun r =>
    if r.2 = [] then some ⟨tlv.type, r.1⟩ else none

end Tlv

def Framed (kind : MessageClass) (id area : List Uint8) (attrs : List StunAttribute) : Prop :=
  ∃ tlvs, Tiles tlvs area ∧
    (tlvs.filter (Tlv.isKnown kind)).map (Tlv.decode kind id) = attrs.map some

/-! ## Honest lengths -/

/-- A header announces what `Read` will consume. -/
def honestHeader (kind : MessageClass) (type length : Uint16) : Bool :=
  match kind.getAttributeValueType type with
  | .uint32 => length = 4
  | .uint64 => length = 8
  | .unknown => length.toNat ≤ 65532
  | _ => true

/-- The headers pass a test, up to one of a type at which to stop. -/
def headersPass (test : Uint16 → Uint16 → Bool) (stop : Uint16 → Bool) : ℕ → List Uint8 → Bool
  | 0, _ => true
  | fuel + 1, area =>
    if area.length < 4 then true
    else
      let type : Uint16 := BitVec.ofNat 16 (beValue (area.take 2))
      let length : Uint16 := BitVec.ofNat 16 (beValue ((area.drop 2).take 2))
      stop type || (test type length &&
        headersPass test stop fuel (area.drop (4 + length.toNat + paddingLength length)))

theorem headersPass_header (test : Uint16 → Uint16 → Bool) (stop : Uint16 → Bool) (fuel : ℕ)
    (type length : Uint16) (body : List Uint8) :
    headersPass test stop (fuel + 1) (writeUInt16 type ++ writeUInt16 length ++ body) =
      (stop type || (test type length && headersPass test stop fuel
        ((writeUInt16 type ++ writeUInt16 length ++ body).drop
          (4 + length.toNat + paddingLength length)))) := by
  have htype : BitVec.ofNat 16 (beValue ((writeUInt16 type ++ writeUInt16 length ++ body).take 2)) =
      type := by
    rw [List.append_assoc, List.take_left' (length_writeUInt16 type)]
    exact ofNat_wordBytes 2 type
  have hlength : BitVec.ofNat 16
      (beValue (((writeUInt16 type ++ writeUInt16 length ++ body).drop 2).take 2)) = length := by
    rw [List.append_assoc, List.drop_left' (length_writeUInt16 type),
      List.take_left' (length_writeUInt16 length)]
    exact ofNat_wordBytes 2 length
  have hlen : ¬(writeUInt16 type ++ writeUInt16 length ++ body).length < 4 := by
    simp only [List.length_append, length_writeUInt16]
    omega
  rw [headersPass, if_neg hlen]
  simp only [htype, hlength]

theorem drop_tile {tlv : Tlv} {pad : List Uint8}
    (hpad : pad.length = paddingLength tlv.length ∨ (pad = [] ∧ rest = [])) :
    (writeUInt16 tlv.type ++ writeUInt16 tlv.length ++ (tlv.value ++ pad) ++ rest).drop
      (4 + tlv.length.toNat + paddingLength tlv.length) = rest := by
  have hvalue := tlv.length_value
  rcases hpad with hpad | ⟨rfl, rfl⟩
  · apply List.drop_left'
    simp only [List.length_append, length_writeUInt16]
    omega
  · apply List.drop_eq_nil_of_le
    simp only [List.length_append, length_writeUInt16, List.length_nil]
    omega

theorem skipLength_of_le (h : length.toNat ≤ 65532) :
    (skipLength length).toNat = length.toNat + paddingLength length := by
  unfold skipLength paddingLength
  split_ifs with h₁ h₂
  · have hmod : (BitVec.ofNat 16 (length.toNat % 4)).toNat = length.toNat % 4 := by
      rw [BitVec.toNat_ofNat]
      omega
    bv_omega
  · omega
  · omega
  · rfl

theorem four_le_of_rounds (h : Rounds kind id rounds rest) : rest = [] ∨ 4 ≤ rest.length := by
  cases h with
  | nil => exact .inl rfl
  | cons hr _ =>
    have := length_of_readRound hr
    exact .inr (by omega)

theorem readRound_tile (hr : readRound kind id buf = some (round, rest)) (hrest : rest = [] ∨ 4 ≤ rest.length)
    (hhonest : honestHeader kind round.type round.length = true) :
    ∃ (tlv : Tlv) (pad : List Uint8), tlv.type = round.type ∧ tlv.length = round.length ∧
      buf = writeUInt16 tlv.type ++ writeUInt16 tlv.length ++ (tlv.value ++ pad) ++ rest ∧
      (pad.length = paddingLength tlv.length ∨ (pad = [] ∧ rest = [])) ∧
      ((tlv.isKnown kind = false ∧ round.attr = none) ∨
        (tlv.isKnown kind = true ∧ ∃ attr, round.attr = some attr ∧
          tlv.decode kind id = some attr)) := by
  obtain ⟨body, rfl, -, hbody⟩ := readRound_eq_some.mp hr
  unfold TakesBody at hbody
  unfold honestHeader at hhonest
  by_cases hvt : kind.getAttributeValueType round.type = .unknown
  · simp only [hvt, if_true, decide_eq_true_eq] at hbody hhonest
    obtain ⟨hlen, hattr⟩ := hbody
    rw [skipLength_of_le hhonest] at hlen
    have htake : (body.take round.length.toNat).length = round.length.toNat := by
      rw [List.length_take]
      omega
    refine ⟨⟨round.type, round.length, body.take round.length.toNat, htake⟩,
      body.drop round.length.toNat, rfl, rfl, ?_, .inl ?_, .inl ⟨?_, hattr⟩⟩
    · rw [List.take_append_drop]
    · change _ = paddingLength round.length
      rw [List.length_drop]
      omega
    · simp only [Tlv.isKnown, hvt, ne_eq, not_true, decide_false]
  · simp only [hvt, if_false] at hbody
    obtain ⟨value, x, pad, rfl, hx, hpad, hattr⟩ := hbody
    have hlen := length_of_readBody hx
    have hsize : bodyLength (kind.getAttributeValueType round.type) round.length = round.length := by
      unfold bodyLength
      split at hhonest <;> simp_all
    rw [hsize, List.length_nil, Nat.add_zero] at hlen
    rw [hsize] at hpad
    refine ⟨⟨round.type, round.length, x, hlen⟩, pad, rfl, rfl, rfl, ?_, .inr ⟨?_, _, hattr, ?_⟩⟩
    · rcases hpad with hpad | ⟨rfl, hshort⟩
      · exact .inl hpad
      · have := paddingLength_lt round.length
        refine .inr ⟨rfl, hrest.resolve_right ?_⟩
        omega
    · simpa only [Tlv.isKnown, decide_eq_true_eq] using hvt
    · simp only [Tlv.decode, hx, Option.bind_some, if_true]

theorem Framed.cons {attrs : List StunAttribute} {tlv : Tlv} {pad : List Uint8} {attr : Option StunAttribute}
    (hpad : pad.length = paddingLength tlv.length ∨ (pad = [] ∧ rest = []))
    (hattr : (tlv.isKnown kind = false ∧ attr = none) ∨
      (tlv.isKnown kind = true ∧ ∃ a, attr = some a ∧ tlv.decode kind id = some a))
    (h : Framed kind id rest attrs) :
    Framed kind id (writeUInt16 tlv.type ++ writeUInt16 tlv.length ++ (tlv.value ++ pad) ++ rest)
      (attr.toList ++ attrs) := by
  obtain ⟨tlvs, htiles, hattrs⟩ := h
  refine ⟨tlv :: tlvs, .cons hpad htiles, ?_⟩
  rcases hattr with ⟨hknown, rfl⟩ | ⟨hknown, a, rfl, hdecode⟩
  · rw [List.filter_cons_of_neg (by rw [hknown]; decide), hattrs]
    rfl
  · rw [List.filter_cons_of_pos hknown, List.map_cons, hattrs, hdecode]
    rfl

theorem filterMap_cons_toList (round : Round) (rounds : List Round) :
    (round :: rounds).filterMap Round.attr = round.attr.toList ++ rounds.filterMap Round.attr := by
  cases h : round.attr with
  | none => rw [List.filterMap_cons_none h]; rfl
  | some a => rw [List.filterMap_cons_some h]; rfl

theorem framed_of_headersPass {fuel : ℕ} (h : Rounds kind id rounds area) (hfuel : area.length ≤ fuel)
    (hhonest : headersPass (honestHeader kind) (fun _ => false) fuel area = true) :
    Framed kind id area (rounds.filterMap Round.attr) := by
  induction h generalizing fuel with
  | nil => exact ⟨[], .nil, rfl⟩
  | @cons round rounds buf rest hr hrounds ih =>
    have hlen := length_of_readRound hr
    obtain ⟨fuel, rfl⟩ : ∃ n, fuel = n + 1 := ⟨fuel - 1, by omega⟩
    obtain ⟨body, hbuf, -⟩ := readRound_eq_some.mp hr
    have hstep := hhonest
    rw [hbuf, List.append_assoc _ body rest, headersPass_header, ← List.append_assoc _ body rest,
      ← hbuf, Bool.false_or, Bool.and_eq_true] at hstep
    obtain ⟨tlv, pad, htype, hlength, hbuf', hpad, hattr⟩ :=
      readRound_tile hr (four_le_of_rounds hrounds) hstep.1
    have hdrop := drop_tile hpad
    rw [← hbuf', hlength] at hdrop
    have hfuel' : rest.length ≤ fuel := by omega
    rw [filterMap_cons_toList, hbuf']
    exact Framed.cons hpad hattr (ih hfuel' (by rw [← hdrop]; exact hstep.2))

theorem honestHeader_of_tile {tlv : Tlv} (hlen : tlv.length.toNat ≤ 65532)
    (hdecode : tlv.isKnown kind = true → ∃ attr, tlv.decode kind id = some attr) :
    honestHeader kind tlv.type tlv.length = true := by
  by_cases hvt : kind.getAttributeValueType tlv.type = .unknown
  · simp only [honestHeader, hvt, hlen, decide_true]
  · obtain ⟨attr, hattr⟩ := hdecode (by simpa only [Tlv.isKnown, decide_eq_true_eq] using hvt)
    obtain ⟨⟨value, rest⟩, hbody, h⟩ := Option.bind_eq_some_iff.mp hattr
    simp only [Option.ite_none_right_eq_some] at h
    obtain ⟨rfl, -⟩ := h
    have hsize := length_of_readBody hbody
    rw [tlv.length_value, List.length_nil, Nat.add_zero] at hsize
    have hfixed := BitVec.eq_of_toNat_eq hsize
    unfold honestHeader
    cases hk : kind.getAttributeValueType tlv.type with
    | uint32 =>
      rw [hk] at hfixed
      exact decide_eq_true hfixed
    | uint64 =>
      rw [hk] at hfixed
      exact decide_eq_true hfixed
    | unknown => exact absurd hk hvt
    | _ => rfl

theorem attr_of_readRound (hr : readRound kind id buf = some (round, rest)) :
    round.attr = none ↔ kind.getAttributeValueType round.type = .unknown := by
  obtain ⟨body, -, -, hbody⟩ := readRound_eq_some.mp hr
  unfold TakesBody at hbody
  by_cases hvt : kind.getAttributeValueType round.type = .unknown
  · simp only [hvt, if_true] at hbody ⊢
    exact ⟨fun _ => trivial, fun _ => hbody.2⟩
  · simp only [hvt, if_false] at hbody ⊢
    obtain ⟨value, x, pad, -, -, -, hattr⟩ := hbody
    rw [hattr]
    exact ⟨fun h => (Option.some_ne_none _ h).elim, False.elim⟩

theorem Framed.headersPass {fuel : ℕ} (h : Rounds kind id rounds area) (hfuel : area.length ≤ fuel)
    (harea : area.length ≤ 65535) (hframed : Framed kind id area (rounds.filterMap Round.attr)) :
    headersPass (honestHeader kind) (fun _ => false) fuel area = true := by
  induction h generalizing fuel with
  | nil =>
    cases fuel <;> rfl
  | @cons round rounds buf rest hr hrounds ih =>
    have hlen := length_of_readRound hr
    obtain ⟨fuel, rfl⟩ : ∃ n, fuel = n + 1 := ⟨fuel - 1, by omega⟩
    obtain ⟨body, hbuf, -⟩ := readRound_eq_some.mp hr
    obtain ⟨tlvs, htiles, hattrs⟩ := hframed
    rw [filterMap_cons_toList, List.map_append] at hattrs
    have hnone := attr_of_readRound hr
    cases htiles with
    | nil =>
      simp only [List.length_nil] at hlen
      omega
    | @cons tlv tlvs pad rest' hpad htiles =>
      -- both start with the same header
      simp only [List.append_assoc] at hbuf
      obtain ⟨htype, hbuf⟩ := wordBytes_append_inj hbuf
      obtain ⟨hlength, -⟩ := wordBytes_append_inj hbuf
      have hdecode : (tlv.isKnown kind = true → ∃ attr, tlv.decode kind id = some attr) ∧
          (tlvs.filter (Tlv.isKnown kind)).map (Tlv.decode kind id) =
            (rounds.filterMap Round.attr).map some := by
        rw [← htype] at hnone
        cases hattr : round.attr with
        | none =>
          have hunknown : tlv.isKnown kind = false := by
            simp only [Tlv.isKnown, hnone.mp hattr, ne_eq, not_true, decide_false]
          rw [List.filter_cons_of_neg (by rw [hunknown]; decide), hattr] at hattrs
          exact ⟨fun h => absurd h (by rw [hunknown]; decide), hattrs⟩
        | some attr =>
          have hknown : tlv.isKnown kind = true := by
            simp only [Tlv.isKnown, decide_eq_true_eq]
            exact fun h => Option.some_ne_none attr (hattr.symm.trans (hnone.mpr h))
          rw [List.filter_cons_of_pos hknown, List.map_cons, hattr] at hattrs
          obtain ⟨hhead, htail⟩ := List.cons.inj hattrs
          exact ⟨fun _ => ⟨attr, hhead⟩, htail⟩
      have hvalue := tlv.length_value
      simp only [List.length_append, length_writeUInt16] at harea hlen hfuel
      have hhonest : honestHeader kind tlv.type tlv.length = true :=
        honestHeader_of_tile (by omega) hdecode.1
      obtain ⟨tlv', pad', htype', hlength', hbuf', hpad', -⟩ :=
        readRound_tile hr (four_le_of_rounds hrounds) (by rw [← htype, ← hlength]; exact hhonest)
      have hrest : rest = rest' := by
        have h₁ := drop_tile hpad
        have h₂ := drop_tile hpad'
        rw [← hbuf', hlength', ← hlength, h₁] at h₂
        exact h₂.symm
      subst hrest
      rw [List.append_assoc _ (tlv.value ++ pad) rest, headersPass_header, Bool.false_or,
        Bool.and_eq_true, ← List.append_assoc _ (tlv.value ++ pad) rest, drop_tile hpad]
      exact ⟨hhonest, ih (by omega) (by omega) ⟨tlvs, htiles, hdecode.2⟩⟩

theorem drop_of_readHeader {type : Uint16} (h : readHeader buf = some (type, length, id, area)) :
    buf.drop kStunHeaderSize = area ∧ area.length ≤ 65535 := by
  obtain ⟨cookie, tid, rfl, hc, ht, -, hlen, -⟩ := readHeader_eq_some.mp h
  constructor
  · apply List.drop_left'
    simp only [List.length_append, length_writeUInt16, hc, ht]
  · have := length.isLt
    omega

theorem rounds_of_read (h : read kind buf = some (msg, rest)) :
    ∃ rounds, readRounds kind buf = some (msg, rounds, rest) := by
  obtain ⟨⟨msg', rounds, rest'⟩, hr, heq⟩ := Option.map_eq_some_iff.mp h
  obtain ⟨rfl, rfl⟩ := Prod.mk.inj heq
  exact ⟨rounds, hr⟩

def HonestLengths (kind : MessageClass) (area : List Uint8) : Prop :=
  headersPass (honestHeader kind) (fun _ => false) area.length area = true

theorem framed_iff_honestLengths {d : List Uint8} (h : readRounds kind d = some (msg, rounds, rest)) :
    Framed kind msg.transactionId (d.drop kStunHeaderSize) msg.attrs ↔
      HonestLengths kind (d.drop kStunHeaderSize) := by
  obtain ⟨area, hheader, hrounds, -, hattrs, -⟩ := readRounds_eq_some.mp h
  obtain ⟨rfl, hlen⟩ := drop_of_readHeader hheader
  rw [hattrs]
  exact ⟨Framed.headersPass hrounds (Nat.le_refl _) hlen,
    framed_of_headersPass hrounds (Nat.le_refl _)⟩

/-- **The area of an accepted message is framed if and only if its lengths are honest.** -/
theorem read_framed_iff_honest (kind : MessageClass) (d rest : List Uint8) (msg : StunMessage)
    (h : read kind d = some (msg, rest)) :
    Framed kind msg.transactionId (d.drop kStunHeaderSize) msg.attrs ↔
      HonestLengths kind (d.drop kStunHeaderSize) := by
  obtain ⟨rounds, hr⟩ := rounds_of_read h
  exact framed_iff_honestLengths hr

/-- The header of a message with an area of `length` bytes. -/
def bindingHeader (length : Uint8) : List Uint8 :=
  [0, 1, 0, length, 0x21, 0x12, 0xa4, 0x42] ++ List.replicate 12 0x30

/-- A FINGERPRINT that announces its four bytes. -/
theorem read_framed_fingerprint :
    let d := bindingHeader 8 ++ [0x80, 0x28, 0, 4, 1, 2, 3, 4]
    (read .stun d).isSome ∧ ∀ msg rest, read .stun d = some (msg, rest) →
      Framed .stun msg.transactionId (d.drop kStunHeaderSize) msg.attrs :=
  ⟨by decide, fun msg rest h =>
    (read_framed_iff_honest .stun _ rest msg h).mpr (by unfold HonestLengths; decide)⟩

/-- **A FINGERPRINT that announces no bytes at all**: `Read` takes the four bytes after it. -/
theorem framing_broken :
    let d := bindingHeader 8 ++ [0x80, 0x28, 0, 0, 0, 0, 0, 0]
    ∃ msg, read .stun d = some (msg, []) ∧
      ¬Framed .stun msg.transactionId (d.drop kStunHeaderSize) msg.attrs := by
  intro d
  have hread : readRounds .stun d = some
      (⟨.stun, 1, 8, List.replicate 12 0x30, [⟨attrFingerprint, .uint32 0⟩]⟩,
        [⟨attrFingerprint, 0, some ⟨attrFingerprint, .uint32 0⟩, 8⟩], []) := by decide
  refine ⟨_, by rw [StunMessage.read, hread]; rfl, ?_⟩
  rw [framed_iff_honestLengths hread, HonestLengths]
  decide

end Libjingle
