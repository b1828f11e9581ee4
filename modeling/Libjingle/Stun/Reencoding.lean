import Libjingle.Stun.RoundTrip
import Libjingle.Stun.Integrity

/-!
# Writing what has been read (`p2p/base/stun.cc`)

`Read` keeps the length of the packet for the message, while it drops the attributes it does not know
and accepts a last attribute without its padding.

Main results: **`reencodes_iff`**, **`reencoding_broken`**.
-/

variable {length type : Uint16} {valueType : StunAttributeValueType} {x d : List Uint8} {value : StunValue}

namespace Libjingle

open Lib StunMessage

/-! ## Attributes that have been read -/

@[simp] theorem writeUInt8_eq (v : Uint8) : wordBytes 1 v = [v] := by
  simp [wordBytes, beBytes]

theorem length_types {n : ℕ} {buf rest : List Uint8} {types : List Uint16}
    (h : readTypes n buf = some (types, rest)) : types.length = n := by
  induction n generalizing buf types rest with
  | zero =>
    cases h
    rfl
  | succ n ih =>
    obtain ⟨⟨attr, buf₁⟩, -, h⟩ := Option.bind_eq_some_iff.mp h
    obtain ⟨⟨types', buf₂⟩, h₂, h⟩ := Option.bind_eq_some_iff.mp h
    cases h
    rw [List.length_cons, ih h₂]

theorem readAddress_family {rest : List Uint8} {addr : SocketAddress} (h : readAddress length x = some (addr, rest)) :
    (∃ a port, addr = .ofIP (.v4 a) port ∧ length = 8 ∧ x[1]? = some 1) ∨
      ∃ a port, addr = .ofIP (.v6 a) port ∧ length = 20 ∧ x[1]? = some 2 := by
  obtain ⟨⟨first, buf₁⟩, h₁, h⟩ := Option.bind_eq_some_iff.mp h
  obtain ⟨⟨family, buf₂⟩, h₂, h⟩ := Option.bind_eq_some_iff.mp h
  obtain ⟨⟨port, buf₃⟩, -, h⟩ := Option.bind_eq_some_iff.mp h
  have hbyte : x[1]? = some family := by
    rw [takeWord_eq_some.mp h₁, takeWord_eq_some.mp h₂]
    simp
  simp only at h
  split_ifs at h with hf hl hf' hl'
  · obtain ⟨⟨a, buf₄⟩, -, h⟩ := Option.bind_eq_some_iff.mp h
    cases h
    exact .inl ⟨a, port, rfl, not_not.mp hl, by rw [hbyte, hf]⟩
  · obtain ⟨⟨a, buf₄⟩, -, h⟩ := Option.bind_eq_some_iff.mp h
    cases h
    exact .inr ⟨a, port, rfl, not_not.mp hl', by rw [hbyte, hf']⟩

/-- An IPv6 address in a XOR attribute of a legacy message. -/
def Unwritable (id : List Uint8) (valueType : StunAttributeValueType) (x : List Uint8) : Prop :=
  valueType = .xorAddress ∧ id.length ≠ kStunTransactionIdLength ∧ x[1]? = some 2

/-- A value that was read but cannot be written. -/
theorem readBody_unwritable {id : List Uint8} {rest : List Uint8}
    (h : readBody id valueType length x = some (value, rest)) (hx : Unwritable id valueType x) :
    value.write id = none := by
  obtain ⟨rfl, hid, hfamily⟩ := hx
  obtain ⟨⟨addr, buf₁⟩, h₁, h⟩ := Option.bind_eq_some_iff.mp h
  cases h
  obtain ⟨⟨addr', buf₂⟩, h₂, h₁⟩ := Option.bind_eq_some_iff.mp h₁
  cases h₁
  rcases readAddress_family h₂ with ⟨a, port, rfl, -, hone⟩ | ⟨a, port, rfl, -, -⟩
  · rw [hfamily] at hone
    exact absurd (Option.some.inj hone) (by decide)
  · have hip : getXoredIP id (.v6 a) = .unspec := if_neg hid
    simp only [StunValue.write, writeXorAddress, SocketAddress.ofIP, hip]
    rfl

/-- What is known of an attribute that was read and can be written. -/
structure ReadBack (id : List Uint8) (valueType : StunAttributeValueType) (length : Uint16)
    (value : StunValue) : Prop where
  valueType_eq : value.valueType = valueType
  size_eq : value.size = (bodyLength valueType length).toNat
  hostname : value.forgetHostname = value
  encodable : value.Encodable id

/-- Any other value that was read can be written. -/
theorem readBody_encodable {id : List Uint8} {rest : List Uint8}
    (h : readBody id valueType length x = some (value, rest)) (hx : ¬Unwritable id valueType x) :
    ReadBack id valueType length value := by
  cases valueType with
  | unknown => cases h
  | address =>
    obtain ⟨⟨addr, buf₁⟩, h₁, h⟩ := Option.bind_eq_some_iff.mp h
    cases h
    rcases readAddress_family h₁ with ⟨a, port, rfl, rfl, -⟩ | ⟨a, port, rfl, rfl, -⟩
    · exact ⟨rfl, rfl, rfl, IPAddress.noConfusion⟩
    · exact ⟨rfl, rfl, rfl, IPAddress.noConfusion⟩
  | xorAddress =>
    obtain ⟨⟨addr, buf₁⟩, h₁, h⟩ := Option.bind_eq_some_iff.mp h
    cases h
    obtain ⟨⟨addr', buf₂⟩, h₂, h₁⟩ := Option.bind_eq_some_iff.mp h₁
    cases h₁
    rcases readAddress_family h₂ with ⟨a, port, rfl, rfl, -⟩ | ⟨a, port, rfl, rfl, hfamily⟩
    · exact ⟨rfl, rfl, rfl, trivial⟩
    · have hid : id.length = kStunTransactionIdLength := by
        by_contra hid
        exact hx ⟨rfl, hid, hfamily⟩
      have hip : getXoredIP id (.v6 a) = .v6 (a ^^^ xorMask id) := if_pos hid
      simp only [SocketAddress.ofIP, hip]
      exact ⟨rfl, rfl, rfl, hid⟩
  | uint32 =>
    obtain ⟨⟨bits, buf₁⟩, -, h⟩ := Option.bind_eq_some_iff.mp h
    cases h
    exact ⟨rfl, rfl, rfl, trivial⟩
  | uint64 =>
    obtain ⟨⟨bits, buf₁⟩, -, h⟩ := Option.bind_eq_some_iff.mp h
    cases h
    exact ⟨rfl, rfl, rfl, trivial⟩
  | byteString =>
    obtain ⟨⟨bytes, buf₁⟩, h₁, h⟩ := Option.bind_eq_some_iff.mp h
    cases h
    exact ⟨rfl, (takeBytes_eq_some.mp h₁).2, rfl, trivial⟩
  | errorCode =>
    simp only [readBody] at h
    split_ifs at h with hmin
    obtain ⟨⟨val, buf₁⟩, -, h⟩ := Option.bind_eq_some_iff.mp h
    obtain ⟨⟨reason, buf₂⟩, h₂, h⟩ := Option.bind_eq_some_iff.mp h
    cases h
    have hreason : reason.length = length.toNat - 4 := (takeBytes_eq_some.mp h₂).2
    have hge : 4 ≤ length.toNat := by bv_omega
    have hclass : (BitVec.setWidth 8 (val >>> 8 &&& 0x7)).toNat ≤ 7 := by
      rw [BitVec.toNat_setWidth, BitVec.toNat_and]
      exact (Nat.mod_le _ _).trans Nat.and_le_right
    refine ⟨rfl, ?_, rfl, hclass⟩
    show 4 + reason.length = length.toNat
    omega
  | uint16List =>
    simp only [readBody] at h
    split_ifs at h with hodd
    obtain ⟨⟨types, buf₁⟩, h₁, h⟩ := Option.bind_eq_some_iff.mp h
    cases h
    refine ⟨rfl, ?_, rfl, trivial⟩
    show types.length * 2 = length.toNat
    rw [length_types h₁]
    omega

/-! ## The headers -/

/-- The number of bytes that `Read` takes after a header. -/
def takenLength (kind : MessageClass) (type length : Uint16) : ℕ :=
  if kind.getAttributeValueType type = .unknown then (skipLength length).toNat
  else
    let size := bodyLength (kind.getAttributeValueType type) length
    size.toNat + paddingLength size

/-- `Read` comes to a header with this type in the area, and `body` is what follows it. -/
inductive ReadsHeader (kind : MessageClass) : List Uint8 → Uint16 → List Uint8 → Prop where
  | here {type length : Uint16} {body : List Uint8} :
      ReadsHeader kind (writeUInt16 type ++ writeUInt16 length ++ body) type body
  | later {type length type' : Uint16} {body body' : List Uint8} :
      ReadsHeader kind (body.drop (takenLength kind type length)) type' body' →
      ReadsHeader kind (writeUInt16 type ++ writeUInt16 length ++ body) type' body'

variable {kind : MessageClass} {id buf rest area : List Uint8} {round : Round} {rounds : List Round}

theorem not_readsHeader_nil {body : List Uint8} : ¬ReadsHeader kind [] type body := by
  generalize hempty : ([] : List Uint8) = empty
  intro h
  have hlen := congrArg List.length hempty
  cases h <;> simp only [List.length_nil, List.length_append, length_writeUInt16] at hlen <;> omega

theorem drop_of_readRound (hr : readRound kind id buf = some (round, rest)) (hrest : rest = [] ∨ 4 ≤ rest.length) :
    ∃ body, buf = writeUInt16 round.type ++ writeUInt16 round.length ++ (body ++ rest) ∧
      TakesBody kind id round body rest ∧
      (body ++ rest).drop (takenLength kind round.type round.length) = rest := by
  obtain ⟨body, hbuf, -, hbody⟩ := readRound_eq_some.mp hr
  refine ⟨body, by rw [hbuf, List.append_assoc _ body], hbody, ?_⟩
  unfold TakesBody at hbody
  unfold takenLength
  by_cases hvt : kind.getAttributeValueType round.type = .unknown
  · simp only [hvt, if_true] at hbody ⊢
    exact List.drop_left' hbody.1
  · simp only [hvt, if_false] at hbody ⊢
    obtain ⟨value, x, pad, rfl, hx, hpad, -⟩ := hbody
    have hlen := length_of_readBody hx
    rw [List.length_nil, Nat.add_zero] at hlen
    rcases hpad with hpad | ⟨rfl, hshort⟩
    · exact List.drop_left' (by rw [List.length_append, hlen, hpad])
    · have := paddingLength_lt (bodyLength (kind.getAttributeValueType round.type) round.length)
      obtain rfl : rest = [] := hrest.resolve_right (by omega)
      exact List.drop_eq_nil_of_le (by simp only [List.append_nil, hlen]; omega)

theorem readsHeader_iff (hr : readRound kind id buf = some (round, rest))
    (hrest : rest = [] ∨ 4 ≤ rest.length) {body : List Uint8} :
    ReadsHeader kind buf type body ↔
      (type = round.type ∧ body = buf.drop 4) ∨ ReadsHeader kind rest type body := by
  obtain ⟨taken, hbuf, -, hdrop⟩ := drop_of_readRound hr hrest
  have hfour : buf.drop 4 = taken ++ rest := by
    rw [hbuf]
    exact List.drop_left' (by rw [List.length_append, length_writeUInt16, length_writeUInt16])
  constructor
  · intro h
    generalize hbuf' : buf = buf' at h hfour
    rw [hbuf] at hbuf'
    cases h with
    | here =>
      simp only [List.append_assoc] at hbuf'
      obtain ⟨htype, htail⟩ := wordBytes_append_inj hbuf'
      obtain ⟨-, hbody⟩ := wordBytes_append_inj htail
      exact .inl ⟨htype.symm, hbody.symm.trans hfour.symm⟩
    | later h =>
      simp only [List.append_assoc] at hbuf'
      obtain ⟨htype, htail⟩ := wordBytes_append_inj hbuf'
      obtain ⟨hlength, hbody⟩ := wordBytes_append_inj htail
      rw [← htype, ← hlength, ← hbody, hdrop] at h
      exact .inr h
  · rintro (⟨rfl, rfl⟩ | h)
    · rw [hfour, hbuf]
      exact .here
    · rw [hbuf]
      exact .later (by rw [hdrop]; exact h)

/-! ## What is written and what was read -/

/-- A header after which there is what cannot be written. -/
def ReadsUnwritable (kind : MessageClass) (id area : List Uint8) : Prop :=
  ∃ type body, ReadsHeader kind area type body ∧ Unwritable id (kind.getAttributeValueType type) body

def ReadsKnown (kind : MessageClass) (area : List Uint8) : Prop :=
  ∀ type body, ReadsHeader kind area type body → kind.getAttributeValueType type ≠ .unknown

theorem readsUnwritable_iff (hr : readRound kind id buf = some (round, rest)) (hrest : rest = [] ∨ 4 ≤ rest.length) :
    ReadsUnwritable kind id buf ↔
      Unwritable id (kind.getAttributeValueType round.type) (buf.drop 4) ∨ ReadsUnwritable kind id rest := by
  constructor
  · rintro ⟨type, body, hreads, h⟩
    rcases (readsHeader_iff hr hrest).mp hreads with ⟨rfl, rfl⟩ | hlater
    · exact .inl h
    · exact .inr ⟨type, body, hlater, h⟩
  · rintro (h | ⟨type, body, hreads, h⟩)
    · exact ⟨_, _, (readsHeader_iff hr hrest).mpr (.inl ⟨rfl, rfl⟩), h⟩
    · exact ⟨type, body, (readsHeader_iff hr hrest).mpr (.inr hreads), h⟩

theorem readsKnown_iff (hr : readRound kind id buf = some (round, rest)) (hrest : rest = [] ∨ 4 ≤ rest.length) :
    ReadsKnown kind buf ↔
      kind.getAttributeValueType round.type ≠ .unknown ∧ ReadsKnown kind rest := by
  constructor
  · intro h
    exact ⟨h _ _ ((readsHeader_iff hr hrest).mpr (.inl ⟨rfl, rfl⟩)),
      fun type body hreads => h type body ((readsHeader_iff hr hrest).mpr (.inr hreads))⟩
  · rintro ⟨hround, hlater⟩ type body hreads
    rcases (readsHeader_iff hr hrest).mp hreads with ⟨rfl, -⟩ | hreads
    · exact hround
    · exact hlater type body hreads

theorem unwritable_append {more : List Uint8} (h : readBody id valueType length x = some (value, [])) :
    Unwritable id valueType (x ++ more) ↔ Unwritable id valueType x := by
  unfold Unwritable
  by_cases hvt : valueType = .xorAddress
  · subst hvt
    obtain ⟨⟨addr, buf₁⟩, h₁, -⟩ := Option.bind_eq_some_iff.mp h
    obtain ⟨⟨addr', buf₂⟩, h₂, -⟩ := Option.bind_eq_some_iff.mp h₁
    have hbyte : 1 < x.length := by
      rcases readAddress_family h₂ with ⟨-, -, -, -, hone⟩ | ⟨-, -, -, -, htwo⟩
      · exact (List.getElem?_eq_some_iff.mp hone).1
      · exact (List.getElem?_eq_some_iff.mp htwo).1
    rw [List.getElem?_append_left hbyte]
  · simp only [hvt, false_and]

/-- What a round makes of an attribute of a known type. -/
structure TakesValue (kind : MessageClass) (id buf rest : List Uint8) (round : Round)
    (value : StunValue) (x : List Uint8) (missing : ℕ) : Prop where
  known : kind.getAttributeValueType round.type ≠ .unknown
  attr_eq : round.attr = some ⟨round.type, value⟩
  read : readBody id (kind.getAttributeValueType round.type) round.length x = some (value, [])
  front : Unwritable id (kind.getAttributeValueType round.type) (buf.drop 4) ↔
    Unwritable id (kind.getAttributeValueType round.type) x
  length_eq : buf.length + missing = 4 + x.length +
    paddingLength (bodyLength (kind.getAttributeValueType round.type) round.length) + rest.length
  missing_lt : missing < 4
  last : missing = 0 ∨ rest = []

theorem readRound_cases (hr : readRound kind id buf = some (round, rest)) (hrest : rest = [] ∨ 4 ≤ rest.length) :
    (kind.getAttributeValueType round.type = .unknown ∧ round.attr = none ∧
      buf.length = 4 + (skipLength round.length).toNat + rest.length) ∨
      ∃ value x missing, TakesValue kind id buf rest round value x missing := by
  obtain ⟨body, hbuf, hbody, -⟩ := drop_of_readRound hr hrest
  have hfour : buf.drop 4 = body ++ rest := by
    rw [hbuf]
    exact List.drop_left' (by rw [List.length_append, length_writeUInt16, length_writeUInt16])
  have hlen : buf.length = 4 + body.length + rest.length := by
    rw [hbuf]
    simp only [List.length_append, length_writeUInt16]
    omega
  unfold TakesBody at hbody
  by_cases hvt : kind.getAttributeValueType round.type = .unknown
  · simp only [hvt, if_true] at hbody
    exact .inl ⟨hvt, hbody.2, by rw [hlen, hbody.1]⟩
  · simp only [hvt, if_false] at hbody
    obtain ⟨value, x, pad, rfl, hx, hpad, hattr⟩ := hbody
    have hlt := paddingLength_lt (bodyLength (kind.getAttributeValueType round.type) round.length)
    rw [List.length_append] at hlen
    refine .inr ⟨value, x, paddingLength (bodyLength (kind.getAttributeValueType round.type) round.length) -
      pad.length, hvt, hattr, hx, ?_, ?_, by omega, ?_⟩
    · rw [hfour, List.append_assoc]
      exact unwritable_append hx
    · rcases hpad with hpad | ⟨rfl, -⟩
      · omega
      · rw [List.length_nil] at hlen ⊢
        omega
    · rcases hpad with hpad | ⟨rfl, hshort⟩
      · exact .inl (by omega)
      · exact .inr (hrest.resolve_right (by omega))

theorem writeAttributes_of_readsUnwritable (h : Rounds kind id rounds area) (hun : ReadsUnwritable kind id area) :
    writeAttributes id (rounds.filterMap Round.attr) = none := by
  induction h with
  | nil =>
    obtain ⟨type, body, hreads, -⟩ := hun
    exact absurd hreads not_readsHeader_nil
  | @cons round rounds buf rest hr hrounds ih =>
    have hrest := four_le_of_rounds hrounds
    rw [filterMap_cons_toList]
    rw [readsUnwritable_iff hr hrest] at hun
    rcases readRound_cases hr hrest with ⟨hvt, hattr, -⟩ | ⟨value, x, missing, htakes⟩
    · rw [hattr]
      refine ih (hun.resolve_left fun h => ?_)
      rw [hvt] at h
      exact absurd h.1 StunAttributeValueType.noConfusion
    · rw [htakes.attr_eq, Option.toList_some, List.singleton_append, writeAttributes]
      rcases hun with hun | hun
      · rw [readBody_unwritable htakes.read (htakes.front.mp hun)]
        rfl
      · rw [ih hun]
        cases value.write id <;> rfl

/-- The size of what was read, up to padding that is missing at the end. -/
theorem paddedSize_of_rounds (h : Rounds kind id rounds area) (hun : ¬ReadsUnwritable kind id area) :
    ∃ missing skipped, area.length + missing =
        ((rounds.filterMap Round.attr).map StunAttribute.paddedSize).sum + skipped ∧
      missing < 4 ∧ skipped % 4 = 0 ∧ (skipped = 0 ↔ ReadsKnown kind area) := by
  induction h with
  | nil =>
    exact ⟨0, 0, rfl, by decide, rfl, fun _ type body h => absurd h not_readsHeader_nil, fun _ => rfl⟩
  | @cons round rounds buf rest hr hrounds ih =>
    have hrest := four_le_of_rounds hrounds
    rw [readsUnwritable_iff hr hrest, not_or] at hun
    obtain ⟨missing', skipped', hsum, hmissing', hskipped', hknown'⟩ := ih hun.2
    rw [filterMap_cons_toList, readsKnown_iff hr hrest, List.map_append, List.sum_append]
    rcases readRound_cases hr hrest with ⟨hvt, hattr, hlen⟩ | ⟨value, x, missing, htakes⟩
    · have hmod := skipLength_mod round.length
      rw [hattr]
      refine ⟨missing', 4 + (skipLength round.length).toNat + skipped', ?_, hmissing', by omega, ?_⟩
      · simp only [Option.toList_none, List.map_nil, List.sum_nil]
        omega
      · constructor
        · intro h
          omega
        · rintro ⟨hne, -⟩
          exact absurd hvt hne
    · have hback := readBody_encodable htakes.read fun h => hun.1 (htakes.front.mpr h)
      have hlen := htakes.length_eq
      have hpadded : StunAttribute.paddedSize ⟨round.type, value⟩ = 4 + x.length +
          paddingLength (bodyLength (kind.getAttributeValueType round.type) round.length) := by
        rw [length_of_readBody htakes.read, StunAttribute.paddedSize, hback.size_eq, paddingLength,
          List.length_nil]
        split_ifs <;> omega
      rw [htakes.attr_eq]
      simp only [Option.toList_some, List.map_cons, List.map_nil, List.sum_cons, List.sum_nil, Nat.add_zero,
        hpadded]
      rcases htakes.last with hnone | rfl
      · exact ⟨missing', skipped', by omega, hmissing', hskipped',
          hknown'.trans ⟨fun h => ⟨htakes.known, h⟩, And.right⟩⟩
      · obtain rfl := rounds_nil_iff.mp hrounds
        simp only [List.filterMap_nil, List.map_nil, List.sum_nil, List.length_nil] at hlen ⊢
        refine ⟨missing, 0, by omega, htakes.missing_lt, rfl, fun _ => ⟨htakes.known, ?_⟩, fun _ => rfl⟩
        exact fun type body h => absurd h not_readsHeader_nil

theorem readBack_of_rounds (h : Rounds kind id rounds area) (hun : ¬ReadsUnwritable kind id area) :
    ∀ attr ∈ rounds.filterMap Round.attr, attr.value.valueType = kind.getAttributeValueType attr.type ∧
      attr.value.Encodable id ∧ attr.value.size ≤ 65535 ∧ attr.forgetHostname = attr := by
  induction h with
  | nil => exact fun _ h => absurd h List.not_mem_nil
  | @cons round rounds buf rest hr hrounds ih =>
    have hrest := four_le_of_rounds hrounds
    rw [readsUnwritable_iff hr hrest, not_or] at hun
    intro attr hattr
    rw [filterMap_cons_toList] at hattr
    rcases List.mem_append.mp hattr with hattr | hattr
    · rcases readRound_cases hr hrest with ⟨-, hnone, -⟩ | ⟨value, x, missing, htakes⟩
      · rw [hnone] at hattr
        cases hattr
      · have hback := readBody_encodable htakes.read fun h => hun.1 (htakes.front.mpr h)
        rw [htakes.attr_eq, Option.toList_some, List.mem_singleton] at hattr
        subst hattr
        refine ⟨hback.valueType_eq, hback.encodable, ?_, ?_⟩
        · have := (bodyLength (kind.getAttributeValueType round.type) round.length).isLt
          rw [hback.size_eq]
          omega
        · rw [StunAttribute.forgetHostname, hback.hostname]
    · exact ih hun.2 attr hattr

/-! ## Messages -/

def Reencodes (kind : MessageClass) (msg : StunMessage) : Prop :=
  ∀ bytes, msg.write = some bytes → msg.length.toNat + kStunHeaderSize = bytes.length ∧
    ∃ msg', read kind bytes = some (msg', []) ∧ msg'.type = msg.type ∧
      msg'.transactionId = msg.transactionId ∧ msg'.attrs = msg.attrs

def LegacyPacket (d : List Uint8) : Prop := (d.drop 4).take 4 ≠ writeUInt32 kStunMagicCookie

/-- The parser reads an XOR-ed address of IPv6. -/
def ReadsXorIPv6 (kind : MessageClass) (area : List Uint8) : Prop :=
  ∃ type body, ReadsHeader kind area type body ∧ kind.getAttributeValueType type = .xorAddress ∧
    body[1]? = some 2

theorem readableId_of_readHeader (h : readHeader d = some (type, length, id, area)) :
    ReadableId id ∧ (id.length ≠ kStunTransactionIdLength ↔ LegacyPacket d) := by
  obtain ⟨cookie, tid, rfl, hc, ht, -, -, rfl⟩ := readHeader_eq_some.mp h
  have hfield : ((writeUInt16 type ++ writeUInt16 length ++ cookie ++ tid ++ area).drop 4).take 4 = cookie := by
    rw [List.append_assoc _ tid, List.append_assoc _ cookie, List.drop_left'
      (by rw [List.length_append, length_writeUInt16, length_writeUInt16]), List.take_left' hc]
  have hmagic : BitVec.ofNat 32 (beValue cookie) = kStunMagicCookie ↔ cookie = writeUInt32 kStunMagicCookie := by
    constructor
    · intro heq
      rw [writeUInt32, ← heq]
      exact (wordBytes_ofNat hc).symm
    · rintro rfl
      exact ofNat_wordBytes 4 kStunMagicCookie
  rw [LegacyPacket, hfield, readTransactionId]
  by_cases hlegacy : cookie = writeUInt32 kStunMagicCookie
  · rw [if_neg (not_not.mpr (hmagic.mpr hlegacy))]
    exact ⟨.inl ht, fun h => absurd ht h, fun h => absurd hlegacy h⟩
  · have hlen : (cookie ++ tid).length = kStunLegacyTransactionIdLength := by
      rw [List.length_append, hc, ht]
    rw [if_pos (mt hmagic.mp hlegacy)]
    refine ⟨.inr ⟨hlen, ?_⟩, fun _ => hlegacy, fun _ => by rw [hlen]; decide⟩
    rw [List.take_left' hc]
    exact hlegacy

theorem readsUnwritable_of_read (h : readHeader d = some (type, length, id, area)) :
    ReadsUnwritable kind id area ↔ LegacyPacket d ∧ ReadsXorIPv6 kind area := by
  rw [← (readableId_of_readHeader h).2]
  constructor
  · rintro ⟨type, body, hreads, hvt, hid, hbyte⟩
    exact ⟨hid, type, body, hreads, hvt, hbyte⟩
  · rintro ⟨hid, type, body, hreads, hvt, hbyte⟩
    exact ⟨type, body, hreads, hvt, hid, hbyte⟩

/-- **What was read is written as it stood**, up to the attributes that were skipped. -/
theorem write_of_read {msg : StunMessage}
    (hheader : readHeader d = some (msg.type, msg.length, msg.transactionId, area))
    (hrounds : Rounds kind msg.transactionId rounds area) (hattrs : msg.attrs = rounds.filterMap Round.attr)
    (hun : ¬ReadsUnwritable kind msg.transactionId area) :
    ∃ bytes, msg.write = some bytes ∧
      bytes.length = kStunHeaderSize + (msg.attrs.map StunAttribute.paddedSize).sum ∧
      (msg.length.toNat + kStunHeaderSize = bytes.length →
        ∃ msg', read kind bytes = some (msg', []) ∧ msg'.type = msg.type ∧
          msg'.transactionId = msg.transactionId ∧ msg'.attrs = msg.attrs) := by
  have hback := readBack_of_rounds hrounds hun
  rw [← hattrs] at hback
  obtain ⟨area', rounds', harea', hrounds', hattrs', hlen'⟩ := rounds_writeAttributes
    (fun attr h => (hback attr h).1) (fun attr h => (hback attr h).2.1) (fun attr h => (hback attr h).2.2.1)
  have hsame : msg.attrs.map StunAttribute.forgetHostname = msg.attrs := by
    rw [List.map_congr_left fun attr h => (hback attr h).2.2.2, List.map_id']
  rw [hsame] at hattrs'
  obtain ⟨-, -, -, -, -, hbit, -, -⟩ := readHeader_eq_some.mp hheader
  obtain ⟨cookie, tid, hids, hcookie, htid, hid⟩ :=
    readTransactionId_written (readableId_of_readHeader hheader).1
  refine ⟨writeUInt16 msg.type ++ writeUInt16 msg.length ++ cookie ++ tid ++ area', ?_, ?_, ?_⟩
  · unfold StunMessage.write isLegacy
    rw [harea']
    simp only [Option.bind_eq_bind, Option.bind_some, decide_eq_true_eq]
    rw [List.append_assoc _ _ msg.transactionId, hids, ← List.append_assoc _ cookie]
  · simp only [List.length_append, length_writeUInt16, hcookie, htid, hlen']
  · intro hlength
    have harea : msg.length.toNat = area'.length := by
      simp only [List.length_append, length_writeUInt16, hcookie, htid, kStunHeaderSize] at hlength
      omega
    let msg' : StunMessage := ⟨kind, msg.type, msg.length, msg.transactionId, msg.attrs⟩
    have hread : readRounds kind _ = some (msg', rounds', []) :=
      readRounds_eq_some.mpr ⟨area', readHeader_eq_some.mpr
        ⟨cookie, tid, rfl, hcookie, htid, hbit, harea, hid⟩, hrounds', rfl, hattrs'.symm, rfl⟩
    exact ⟨msg', by rw [StunMessage.read, hread, Option.map_some], rfl, rfl, rfl⟩

/-- **A message that was read is written as it should be** if the types are all known and no padding
is missing, or if it cannot be written. -/
theorem reencodes_iff (kind : MessageClass) (d rest : List Uint8) (msg : StunMessage)
    (h : read kind d = some (msg, rest)) :
    Reencodes kind msg ↔
      (d.length % 4 = 0 ∧ ReadsKnown kind (d.drop kStunHeaderSize)) ∨
        (LegacyPacket d ∧ ReadsXorIPv6 kind (d.drop kStunHeaderSize)) := by
  obtain ⟨rounds, hr⟩ := rounds_of_read h
  obtain ⟨area, hheader, hrounds, -, hattrs, -⟩ := readRounds_eq_some.mp hr
  obtain ⟨rfl, -⟩ := drop_of_readHeader hheader
  rw [← readsUnwritable_of_read hheader]
  by_cases hun : ReadsUnwritable kind msg.transactionId (d.drop kStunHeaderSize)
  · have hnone : msg.write = none := by
      rw [StunMessage.write, hattrs, writeAttributes_of_readsUnwritable hrounds hun]
      rfl
    refine ⟨fun _ => .inr hun, fun _ bytes hwrite => ?_⟩
    rw [hnone] at hwrite
    cases hwrite
  · obtain ⟨bytes, hwrite, hlen, hread⟩ := write_of_read hheader hrounds hattrs hun
    obtain ⟨missing, skipped, hsum, hmissing, hskipped, hknown⟩ := paddedSize_of_rounds hrounds hun
    rw [← hattrs] at hsum
    have hmod : (msg.attrs.map StunAttribute.paddedSize).sum % 4 = 0 := sum_paddedSize_mod msg.attrs
    obtain ⟨cookie, tid, hd, hcookie, htid, -, hlength, -⟩ := readHeader_eq_some.mp hheader
    have hdlen : d.length = kStunHeaderSize + (d.drop kStunHeaderSize).length := by
      have hlarge := congrArg List.length hd
      simp only [List.length_append, length_writeUInt16, hcookie, htid] at hlarge
      rw [kStunHeaderSize]
      omega
    -- only whole skipped attributes and less than four missing bytes can make a difference
    have hright : msg.length.toNat + kStunHeaderSize = bytes.length ↔
        d.length % 4 = 0 ∧ ReadsKnown kind (d.drop kStunHeaderSize) := by
      rw [hlen, hlength, hdlen, ← hknown]
      have h₂₀ : kStunHeaderSize = 20 := rfl
      omega
    rw [or_iff_left hun, ← hright]
    constructor
    · intro hre
      exact (hre bytes hwrite).1
    · intro heq bytes' hwrite'
      obtain rfl := Option.some.inj (hwrite.symm.trans hwrite')
      exact ⟨heq, hread heq⟩

/-- A binding request with a user name that is padded. -/
theorem reencodes_username :
    ∃ msg, read .stun (bindingHeader 8 ++ [0, 6, 0, 2, 0x61, 0x62, 0, 0]) = some (msg, []) ∧
      Reencodes .stun msg := by
  have hread : read .stun (bindingHeader 8 ++ [0, 6, 0, 2, 0x61, 0x62, 0, 0]) = some
      (⟨.stun, 1, 8, List.replicate 12 0x30, [⟨attrUsername, .byteString [0x61, 0x62]⟩]⟩, []) := by
    decide
  refine ⟨_, hread, (reencodes_iff .stun _ [] _ hread).mpr (.inl ⟨by decide, ?_⟩)⟩
  have hround : readRound .stun [] ((bindingHeader 8 ++ [0, 6, 0, 2, 0x61, 0x62, 0, 0]).drop 20) = some
      (⟨attrUsername, 2, some ⟨attrUsername, .byteString [0x61, 0x62]⟩, 8⟩, []) := by decide
  exact (readsKnown_iff hround (.inl rfl)).mpr
    ⟨by decide, fun type body h => absurd h not_readsHeader_nil⟩

/-- **An unknown attribute is dropped, and its four bytes stay in the length.** -/
theorem reencoding_broken :
    ∃ msg bytes, read .stun (bindingHeader 4 ++ [0x7f, 0xff, 0, 0]) = some (msg, []) ∧
      msg.write = some bytes ∧ msg.length = 4 ∧ bytes.length = 20 ∧ read .stun bytes = none ∧
      ¬Reencodes .stun msg := by
  let msg : StunMessage := ⟨.stun, 1, 4, List.replicate 12 0x30, []⟩
  have hwrite : msg.write = some (bindingHeader 4) := by decide
  refine ⟨msg, bindingHeader 4, by decide, hwrite, rfl, rfl, by decide, fun h => ?_⟩
  exact absurd (h _ hwrite).1 (by decide)

end Libjingle
