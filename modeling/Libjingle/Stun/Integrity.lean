import Libjingle.Stun.Framing

/-!
# The parser and the integrity check

`ValidateMessageIntegrity` walks over the raw bytes by the announced lengths, `Read` by what its
attributes consume.

Main results: **`walkers_agree_of_inStep`**, **`walkers_disagree`**.
-/

variable {kind : MessageClass} {rest id area area' buf d : List Uint8} {data : ℕ → Uint8} {rounds : List Round}
  {round : Round} {msg : StunMessage} {size : ℕ}

namespace Libjingle

open Lib StunMessage

/-! ## Rounds look at what they take -/

theorem IsPadding.complete {length : Uint16} {x pad : List Uint8} (h : IsPadding length pad rest)
    (hx : x.length = length.toNat) (hmod : (x ++ pad).length % 4 = 0) :
    pad.length = paddingLength length := by
  rw [List.length_append] at hmod
  rcases h with hpad | ⟨rfl, -⟩
  · exact hpad
  · have hall := paddingLength_mod length
    have hlt := paddingLength_lt length
    rw [List.length_nil] at hmod ⊢
    omega

/-- A round does not look at what comes behind it. -/
theorem readRound_local (hr : readRound kind id buf = some (round, rest)) (hsize : round.size % 4 = 0) :
    ∃ x, buf = x ++ rest ∧ x.length = round.size ∧
      ∀ rest', readRound kind id (x ++ rest') = some (round, rest') := by
  obtain ⟨body, rfl, hlen, hbody⟩ := readRound_eq_some.mp hr
  refine ⟨writeUInt16 round.type ++ writeUInt16 round.length ++ body, rfl, ?_, ?_⟩
  · simp only [List.length_append, length_writeUInt16]
    omega
  · intro rest'
    refine readRound_eq_some.mpr ⟨body, rfl, hlen, ?_⟩
    unfold TakesBody at hbody ⊢
    dsimp only at hbody ⊢
    split_ifs at hbody ⊢ with hvt
    · exact hbody
    · obtain ⟨value, x, pad, rfl, hx, hpad, hattr⟩ := hbody
      exact ⟨value, x, pad, rfl, hx, .inl (hpad.complete (length_of_readBody hx) (by omega)), hattr⟩

theorem skipLength_mod (length : Uint16) : (skipLength length).toNat % 4 = 0 := by
  by_cases h : length.toNat ≤ 65532
  · rw [skipLength_of_le h]
    exact paddingLength_mod length
  · obtain h | h | h : length = 65533 ∨ length = 65534 ∨ length = 65535 := by
      have := length.isLt
      rcases (by omega : length.toNat = 65533 ∨ length.toNat = 65534 ∨ length.toNat = 65535) with
        h | h | h
      · exact .inl (BitVec.eq_of_toNat_eq h)
      · exact .inr (.inl (BitVec.eq_of_toNat_eq h))
      · exact .inr (.inr (BitVec.eq_of_toNat_eq h))
    all_goals subst h; decide

theorem size_mod_of_rounds (hr : readRound kind id buf = some (round, rest))
    (hrounds : Rounds kind id rounds rest) (hbuf : buf.length % 4 = 0) : round.size % 4 = 0 := by
  have hlen := length_of_readRound hr
  obtain ⟨body, -, hsize, hbody⟩ := readRound_eq_some.mp hr
  unfold TakesBody at hbody
  dsimp only at hbody
  split_ifs at hbody with hvt
  · have := skipLength_mod round.length
    omega
  · obtain ⟨value, x, pad, rfl, hx, hpad, -⟩ := hbody
    have hbodyLen := length_of_readBody hx
    have hmod := paddingLength_mod (bodyLength (kind.getAttributeValueType round.type) round.length)
    have hlt := paddingLength_lt (bodyLength (kind.getAttributeValueType round.type) round.length)
    rw [List.length_append] at hsize
    rw [List.length_nil] at hbodyLen
    rcases hpad with hpad | ⟨rfl, hshort⟩
    · omega
    · rcases four_le_of_rounds hrounds with rfl | hfour
      · rw [List.length_nil] at hlen
        omega
      · omega

/-- `Read` steps by the announced length. -/
def inStep (kind : MessageClass) (type length : Uint16) : Bool :=
  match kind.getAttributeValueType type with
  | .uint32 => length.toNat + paddingLength length = 4
  | .uint64 => length.toNat + paddingLength length = 8
  | .unknown => length.toNat ≤ 65532
  | _ => true

theorem size_of_inStep (hr : readRound kind id buf = some (round, rest)) (hsize : round.size % 4 = 0)
    (hstep : inStep kind round.type round.length = true) :
    round.size = 4 + round.length.toNat + paddingLength round.length := by
  obtain ⟨body, -, hlen, hbody⟩ := readRound_eq_some.mp hr
  unfold TakesBody at hbody
  dsimp only at hbody
  split_ifs at hbody with hvt
  · have hle : round.length.toNat ≤ 65532 := by
      simpa only [inStep, hvt, decide_eq_true_eq] using hstep
    rw [hlen, hbody.1, skipLength_of_le hle]
    omega
  · obtain ⟨value, x, pad, rfl, hx, hpad, -⟩ := hbody
    have hbodyLen : x.length = (bodyLength (kind.getAttributeValueType round.type) round.length).toNat :=
      length_of_readBody hx
    have hcomplete := hpad.complete hbodyLen (by omega)
    have htotal : round.size = 4 + (bodyLength (kind.getAttributeValueType round.type) round.length).toNat +
        paddingLength (bodyLength (kind.getAttributeValueType round.type) round.length) := by
      rw [List.length_append] at hlen
      omega
    rw [htotal]
    unfold inStep at hstep
    cases hk : kind.getAttributeValueType round.type with
    | uint32 =>
      rw [hk] at hstep
      have := of_decide_eq_true hstep
      have h₄ : (bodyLength .uint32 round.length).toNat + paddingLength (bodyLength .uint32 round.length) = 4 :=
        (by decide : (4#16).toNat + paddingLength 4#16 = 4)
      omega
    | uint64 =>
      rw [hk] at hstep
      have := of_decide_eq_true hstep
      have h₈ : (bodyLength .uint64 round.length).toNat + paddingLength (bodyLength .uint64 round.length) = 8 :=
        (by decide : (8#16).toNat + paddingLength 8#16 = 8)
      omega
    | unknown => exact absurd hk hvt
    | _ => rfl

/-! ## The two walks -/

def beforeIntegrity (rounds : List Round) : List Round :=
  rounds.takeWhile fun round => round.type ≠ attrMessageIntegrity

/-- `Read` finds the MESSAGE-INTEGRITY that was checked. -/
structure WalkersAgree (kind : MessageClass) (id : List Uint8) (rounds : List Round)
    (data : ℕ → Uint8) (size miPos : ℕ) : Prop where
  found : ∃ round ∈ rounds, round.type = attrMessageIntegrity
  offset : kStunHeaderSize + ((beforeIntegrity rounds).map Round.size).sum = miPos
  covered : Rounds kind id (beforeIntegrity rounds)
    ((integrityInput data size miPos).drop kStunHeaderSize)

theorem beforeIntegrity_cons (round : Round) (rounds : List Round) :
    beforeIntegrity (round :: rounds) =
      if round.type = attrMessageIntegrity then [] else round :: beforeIntegrity rounds := by
  unfold beforeIntegrity
  rw [List.takeWhile_cons]
  by_cases h : round.type = attrMessageIntegrity <;> simp [h]

theorem getBE16_of_append {pos n : ℕ} {v : Uint16}
    (h : block data pos n = writeUInt16 v ++ rest) : getBE16 data pos = v := by
  obtain ⟨hv, -⟩ := block_eq_append h
  rw [length_writeUInt16] at hv
  rw [getBE16, ← hv]
  exact ofNat_wordBytes 2 v

theorem getBE16_of_readRound {pos n : ℕ} (hr : readRound kind id (block data pos n) = some (round, rest)) :
    getBE16 data pos = round.type ∧ getBE16 data (pos + 2) = round.length := by
  obtain ⟨body, hbuf, -⟩ := readRound_eq_some.mp hr
  simp only [List.append_assoc] at hbuf
  obtain ⟨-, hrest⟩ := block_eq_append hbuf
  rw [length_writeUInt16] at hrest
  exact ⟨getBE16_of_append hbuf, getBE16_of_append hrest.symm⟩

theorem walks_agree (h : Rounds kind id rounds area) :
    ∀ {pos miPos fuel fuel' : ℕ}, area = block data pos (size - pos) → area.length % 4 = 0 →
      area.length ≤ fuel →
      headersPass (inStep kind) (fun type => type = attrMessageIntegrity) fuel area = true →
      findMessageIntegrity data size fuel' pos = some miPos →
      (∃ round ∈ rounds, round.type = attrMessageIntegrity) ∧
        pos + ((beforeIntegrity rounds).map Round.size).sum = miPos ∧
        Rounds kind id (beforeIntegrity rounds) (block data pos (miPos - pos)) := by
  induction h with
  | nil =>
    intro pos miPos fuel fuel' harea hmod hfuel hpass hfind
    have hlen := congrArg List.length harea
    rw [length_block, List.length_nil] at hlen
    cases fuel' with
    | zero => cases hfind
    | succ fuel' =>
      rw [findMessageIntegrity, if_neg (by omega)] at hfind
      cases hfind
  | @cons round rounds buf rest hr hrounds ih =>
    intro pos miPos fuel fuel' harea hmod hfuel hpass hfind
    subst harea
    have hlen := length_of_readRound hr
    have hsize := size_mod_of_rounds hr hrounds hmod
    obtain ⟨htype, hlength⟩ := getBE16_of_readRound hr
    obtain ⟨x, hx, hxlen, hlocal⟩ := readRound_local hr hsize
    obtain ⟨hxblock, hrest⟩ := block_eq_append hx
    rw [hxlen] at hxblock hrest
    rw [length_block] at hlen hfuel hmod
    obtain ⟨fuel, rfl⟩ : ∃ n, fuel = n + 1 := ⟨fuel - 1, by omega⟩
    cases fuel' with
    | zero => cases hfind
    | succ fuel' =>
      rw [findMessageIntegrity, if_pos (by omega), htype, hlength] at hfind
      dsimp only at hfind
      rw [beforeIntegrity_cons]
      by_cases hmi : round.type = attrMessageIntegrity
      · rw [if_pos hmi] at hfind
        split_ifs at hfind with hbad
        cases hfind
        rw [if_pos hmi]
        refine ⟨⟨round, List.mem_cons_self, hmi⟩, rfl, ?_⟩
        rw [Nat.sub_self]
        exact .nil
      · rw [if_neg hmi] at hfind
        obtain ⟨body, hbuf, -⟩ := readRound_eq_some.mp hr
        rw [hbuf, List.append_assoc _ body, headersPass_header, ← List.append_assoc _ body, ← hbuf,
          decide_eq_false hmi, Bool.false_or, Bool.and_eq_true] at hpass
        have hstep := size_of_inStep hr hsize hpass.1
        have hnext : (block data pos (size - pos)).drop
            (4 + round.length.toNat + paddingLength round.length) = rest := by
          rw [← hstep, hx, ← hxlen, List.drop_left]
        rw [hnext] at hpass
        have hpos : pos + 2 + 2 + round.length.toNat + paddingLength round.length =
            pos + round.size := by omega
        rw [hpos] at hfind
        rw [Nat.sub_sub] at hrest
        have hrestLen := congrArg List.length hrest
        rw [length_block] at hrestLen
        obtain ⟨hfound, hsum, hcovered⟩ := ih hrest (by omega) (by omega) hpass.2 hfind
        rw [if_neg hmi]
        refine ⟨?_, ?_, ?_⟩
        · obtain ⟨mi, hmem, hmitype⟩ := hfound
          exact ⟨mi, List.mem_cons_of_mem _ hmem, hmitype⟩
        · rw [List.map_cons, List.sum_cons]
          omega
        · refine .cons ?_ hcovered
          rw [show miPos - pos = round.size + (miPos - (pos + round.size)) by omega, block_add,
            ← hxblock]
          exact hlocal _

theorem drop_integrityInput (data : ℕ → Uint8) (size miPos : ℕ) (h : kStunHeaderSize ≤ miPos) :
    (integrityInput data size miPos).drop kStunHeaderSize =
      block data kStunHeaderSize (miPos - kStunHeaderSize) := by
  have h₂₀ : 20 ≤ miPos := h
  unfold integrityInput kStunHeaderSize
  dsimp only
  split_ifs
  · have htake : ((block data 0 miPos).take 2).length = 2 := by
      rw [List.length_take, length_block]
      omega
    have hfield : ∀ w : Uint16, ((block data 0 miPos).take 2 ++ writeUInt16 w).length = 4 := by
      intro w
      rw [List.length_append, htake, length_writeUInt16]
    rw [List.drop_append, hfield, List.drop_eq_nil_of_le (by rw [hfield]; omega), List.nil_append,
      List.drop_drop, drop_block, Nat.zero_add]
  · rw [drop_block, Nat.zero_add]

theorem integrityPosition_of_valid {hmac : List Uint8 → List Uint8 → List Uint8} {password : List Uint8}
    (h : validateMessageIntegrity hmac data size password = true) :
    size % 4 = 0 ∧ ∃ miPos, integrityPosition data size = some miPos ∧
      findMessageIntegrity data size size kStunHeaderSize = some miPos := by
  unfold validateMessageIntegrity at h
  cases hpos : integrityPosition data size with
  | none =>
    rw [hpos] at h
    cases h
  | some miPos =>
    have hfind := hpos
    unfold integrityPosition at hfind
    split_ifs at hfind with hmod hsize
    exact ⟨not_not.mp hmod, miPos, rfl, hfind⟩

/-- The headers before the first MESSAGE-INTEGRITY are in step. -/
def InStepUntilIntegrity (kind : MessageClass) (area : List Uint8) : Prop :=
  headersPass (inStep kind) (fun type => type = attrMessageIntegrity) area.length area = true

/-- **The parser and the integrity check find the same attribute** if the headers before it are in
step. -/
theorem walkers_agree_of_inStep (kind : MessageClass)
    (hmac : List Uint8 → List Uint8 → List Uint8) (data : ℕ → Uint8) (size : ℕ)
    (password : List Uint8) (msg : StunMessage) (rounds : List Round) (rest : List Uint8)
    (hvalid : validateMessageIntegrity hmac data size password = true)
    (hread : readRounds kind (block data 0 size) = some (msg, rounds, rest))
    (hstep : InStepUntilIntegrity kind ((block data 0 size).drop kStunHeaderSize)) :
    ∃ miPos, integrityPosition data size = some miPos ∧
      WalkersAgree kind msg.transactionId rounds data size miPos := by
  obtain ⟨hmod, miPos, hpos, hfind⟩ := integrityPosition_of_valid hvalid
  obtain ⟨area, hheader, hrounds, -⟩ := readRounds_eq_some.mp hread
  obtain ⟨rfl, -⟩ := drop_of_readHeader hheader
  have harea := drop_block data 0 size kStunHeaderSize
  rw [Nat.zero_add] at harea
  have hlen : ((block data 0 size).drop kStunHeaderSize).length % 4 = 0 := by
    rw [List.length_drop, length_block, kStunHeaderSize]
    omega
  obtain ⟨hfound, hsum, hcovered⟩ := walks_agree hrounds harea hlen (Nat.le_refl _) hstep hfind
  refine ⟨miPos, hpos, hfound, hsum, ?_⟩
  rw [drop_integrityInput data size miPos (by omega)]
  exact hcovered

def zeroIntegrity : List Uint8 := [0, 8, 0, 20] ++ List.replicate 20 0

/-- A USERNAME before the MESSAGE-INTEGRITY. -/
theorem walkers_agree_username :
    let d := bindingHeader 32 ++ [0, 6, 0, 2, 0x61, 0x62, 0, 0] ++ zeroIntegrity
    (readRounds .stun (block (packetData d) 0 52)).isSome ∧
      ∀ msg rounds rest, readRounds .stun (block (packetData d) 0 52) = some (msg, rounds, rest) →
        ∃ miPos, integrityPosition (packetData d) 52 = some miPos ∧
          WalkersAgree .stun msg.transactionId rounds (packetData d) 52 miPos :=
  ⟨by decide, fun msg rounds rest h =>
    walkers_agree_of_inStep .stun (fun _ _ => List.replicate 20 0) _ 52 [] msg rounds rest
      (by decide) h (by unfold InStepUntilIntegrity; decide)⟩

/-- **A RETRANSMIT-COUNT that announces 28 bytes**: the check steps over the MESSAGE-INTEGRITY after
it. -/
theorem walkers_disagree :
    let d := bindingHeader 56 ++ [0xff, 0, 0, 28, 0, 0, 0, 0] ++ zeroIntegrity ++ zeroIntegrity
    let hmac : List Uint8 → List Uint8 → List Uint8 := fun _ _ => List.replicate 20 0
    validateMessageIntegrity hmac (packetData d) 76 [] = true ∧
      integrityPosition (packetData d) 76 = some 52 ∧
      ∃ msg rounds, readRounds .stun (block (packetData d) 0 76) = some (msg, rounds, []) ∧
        ¬WalkersAgree .stun msg.transactionId rounds (packetData d) 76 52 := by
  intro d hmac
  let integrity : Round :=
    ⟨attrMessageIntegrity, 20, some ⟨attrMessageIntegrity, .byteString (List.replicate 20 0)⟩, 24⟩
  let count : Round := ⟨attrRetransmitCount, 28, some ⟨attrRetransmitCount, .uint32 0⟩, 8⟩
  have hread : readRounds .stun (block (packetData d) 0 76) = some
      (⟨.stun, 1, 56, List.replicate 12 0x30, [count, integrity, integrity].filterMap Round.attr⟩,
        [count, integrity, integrity], []) := by decide
  refine ⟨by decide, by decide, _, _, hread, fun h => ?_⟩
  exact absurd h.offset (by decide)

/-! ## What follows the MESSAGE-INTEGRITY -/

/-- The rounds that fit into `n` bytes. -/
def roundsWithin : ℕ → List Round → List Round
  | _, [] => []
  | n, round :: rounds =>
    if round.size ≤ n then round :: roundsWithin (n - round.size) rounds else []

theorem roundsWithin_isPrefix (n : ℕ) (rounds : List Round) : ∃ after, rounds = roundsWithin n rounds ++ after := by
  induction rounds generalizing n with
  | nil => exact ⟨[], rfl⟩
  | cons round rounds ih =>
    unfold roundsWithin
    split_ifs
    · obtain ⟨after, hafter⟩ := ih (n - round.size)
      exact ⟨after, by rw [List.cons_append, ← hafter]⟩
    · exact ⟨round :: rounds, rfl⟩

theorem readRound_of_take {n : ℕ} (hr : readRound kind id area = some (round, rest)) (hmod : round.size % 4 = 0)
    (hsize : round.size ≤ n) (htake : area.take n = area'.take n) :
    ∃ rest', readRound kind id area' = some (round, rest') ∧
      rest.take (n - round.size) = rest'.take (n - round.size) := by
  obtain ⟨x, rfl, hx, hlocal⟩ := readRound_local hr hmod
  have hpre : x <+: area'.take n := by
    rw [← htake, List.prefix_take_iff]
    exact ⟨List.prefix_append x rest, by omega⟩
  obtain ⟨rest', rfl⟩ := hpre.trans (List.take_prefix n area')
  refine ⟨rest', hlocal rest', ?_⟩
  rw [List.take_append, List.take_append, List.take_of_length_le (by omega)] at htake
  rw [← hx]
  exact List.append_cancel_left htake

theorem roundsWithin_eq {rounds' : List Round} {n : ℕ} (h : Rounds kind id rounds area)
    (h' : Rounds kind id rounds' area') (hmod : area.length % 4 = 0) (hmod' : area'.length % 4 = 0)
    (htake : area.take n = area'.take n) : roundsWithin n rounds = roundsWithin n rounds' := by
  induction h generalizing area' rounds' n with
  | nil =>
    cases h' with
    | nil => rfl
    | @cons round' _ _ _ hr' _ =>
      have hlen := length_of_readRound hr'
      have htake' := congrArg List.length htake
      rw [List.take_nil, List.length_nil, List.length_take] at htake'
      rw [roundsWithin, roundsWithin, if_neg (by omega)]
  | @cons round rounds area rest hr hrounds ih =>
    have hlen := length_of_readRound hr
    have hsize := size_mod_of_rounds hr hrounds hmod
    cases h' with
    | nil =>
      have htake' := congrArg List.length htake
      rw [List.take_nil, List.length_nil, List.length_take] at htake'
      rw [roundsWithin, roundsWithin, if_neg (by omega)]
    | @cons round' rounds' _ rest' hr' hrounds' =>
      have hlen' := length_of_readRound hr'
      have hsize' := size_mod_of_rounds hr' hrounds' hmod'
      by_cases hle : round.size ≤ n
      · obtain ⟨rest₁, hr₁, hrest₁⟩ := readRound_of_take hr hsize hle htake
        obtain ⟨rfl, rfl⟩ := Prod.mk.inj (Option.some.inj (hr'.symm.trans hr₁))
        rw [roundsWithin, roundsWithin, if_pos hle, if_pos hle,
          ih hrounds' (by omega) (by omega) hrest₁]
      · by_cases hle' : round'.size ≤ n
        · obtain ⟨rest₁, hr₁, -⟩ := readRound_of_take hr' hsize' hle' htake.symm
          obtain ⟨rfl, -⟩ := Prod.mk.inj (Option.some.inj (hr.symm.trans hr₁))
          exact absurd hle' hle
        · rw [roundsWithin, roundsWithin, if_neg hle, if_neg hle']

/-- The packets agree on `m` bytes, apart from the length field. -/
def AgreeExceptLength (d d' : List Uint8) (m : ℕ) : Prop :=
  ∀ i, i < m → i ≠ 2 → i ≠ 3 → d[i]? = d'[i]?

theorem getElem?_after_length (type length : Uint16) (x : List Uint8) (i : ℕ) :
    (writeUInt16 type ++ writeUInt16 length ++ x)[4 + i]? = x[i]? := by
  have hlen : (writeUInt16 type ++ writeUInt16 length).length = 4 := by
    rw [List.length_append, length_writeUInt16, length_writeUInt16]
  rw [List.getElem?_append_right (by omega), hlen, Nat.add_sub_cancel_left]

theorem AgreeExceptLength.header {d' id' : List Uint8}
    {type type' length length' : Uint16} {m : ℕ} (hm : kStunHeaderSize ≤ m)
    (h : AgreeExceptLength d d' m) (hd : readHeader d = some (type, length, id, area))
    (hd' : readHeader d' = some (type', length', id', area')) :
    id = id' ∧ area.take (m - kStunHeaderSize) = area'.take (m - kStunHeaderSize) := by
  obtain ⟨cookie, tid, rfl, hc, ht, -, -, rfl⟩ := readHeader_eq_some.mp hd
  obtain ⟨cookie', tid', rfl, hc', ht', -, -, rfl⟩ := readHeader_eq_some.mp hd'
  have h₂₀ : 20 ≤ m := hm
  have htake : (cookie ++ (tid ++ area)).take (m - 4) = (cookie' ++ (tid' ++ area')).take (m - 4) := by
    apply List.ext_getElem?
    intro i
    rw [List.getElem?_take, List.getElem?_take]
    split_ifs with hi
    · have hbyte := h (4 + i) (by omega) (by omega) (by omega)
      rw [List.append_assoc _ tid, List.append_assoc _ cookie, List.append_assoc _ tid',
        List.append_assoc _ cookie', getElem?_after_length, getElem?_after_length] at hbyte
      exact hbyte
    · rfl
  have hsplit : ∀ x y z : List Uint8, x.length = 4 → y.length = 12 →
      (x ++ (y ++ z)).take (m - 4) = x ++ (y ++ z.take (m - 20)) := by
    intro x y z hx hy
    rw [show m - 4 = x.length + (y.length + (m - 20)) by omega, List.take_length_add_append,
      List.take_length_add_append]
  rw [hsplit _ _ _ hc ht, hsplit _ _ _ hc' ht'] at htake
  obtain ⟨rfl, hrest⟩ := List.append_inj htake (hc.trans hc'.symm)
  obtain ⟨rfl, harea⟩ := List.append_inj hrest (ht.trans ht'.symm)
  exact ⟨rfl, harea⟩

/-- `m` is where the first MESSAGE-INTEGRITY ends. -/
def IntegrityEnd (data : ℕ → Uint8) (size : ℕ) (rounds : List Round) (m : ℕ) : Prop :=
  (∃ miPos, integrityPosition data size = some miPos ∧
      m = miPos + kStunAttributeHeaderSize + kStunMessageIntegritySize) ∨
    ∃ round, rounds.find? (fun round => round.type = attrMessageIntegrity) = some round ∧
      m = kStunHeaderSize + ((beforeIntegrity rounds).map Round.size).sum + round.size

theorem le_of_findMessageIntegrity {fuel pos miPos : ℕ}
    (h : findMessageIntegrity data size fuel pos = some miPos) : pos ≤ miPos := by
  induction fuel generalizing pos with
  | zero => cases h
  | succ fuel ih =>
    rw [findMessageIntegrity] at h
    dsimp only at h
    split_ifs at h with hpos hmi
    · exact Nat.le_of_eq (Option.some.inj h)
    · have := ih h
      omega

theorem IntegrityEnd.le {m : ℕ} (h : IntegrityEnd data size rounds m) : kStunHeaderSize ≤ m := by
  rcases h with ⟨miPos, hpos, rfl⟩ | ⟨round, -, rfl⟩
  · unfold integrityPosition at hpos
    split_ifs at hpos
    have := le_of_findMessageIntegrity hpos
    omega
  · omega

/-- The attributes decoded from the first `m` bytes. -/
def attributesWithin (m : ℕ) (rounds : List Round) : List StunAttribute :=
  (roundsWithin (m - kStunHeaderSize) rounds).filterMap Round.attr

/-- The type occurs among the attributes `pre`, or in neither message. -/
def Settled (pre : List StunAttribute) (msg msg' : StunMessage) (type : Uint16) : Prop :=
  (∃ attr ∈ pre, attr.type = type) ∨ ∀ attr ∈ msg.attrs ++ msg'.attrs, attr.type ≠ type

theorem getAttribute_of_settled {pre after after' : List StunAttribute} {msg' : StunMessage}
    {type : Uint16} (h : msg.attrs = pre ++ after) (h' : msg'.attrs = pre ++ after')
    (hsettled : Settled pre msg msg' type) : msg.getAttribute type = msg'.getAttribute type := by
  unfold getAttribute
  rcases hsettled with ⟨attr, hmem, htype⟩ | hnone
  · have hsome : (pre.find? fun attr => attr.type = type).isSome := by
      rw [List.find?_isSome]
      exact ⟨attr, hmem, decide_eq_true htype⟩
    rw [h, h', List.find?_append, List.find?_append, Option.or_of_isSome hsome,
      Option.or_of_isSome hsome]
  · rw [List.find?_eq_none.mpr, List.find?_eq_none.mpr]
    · intro attr hmem
      simpa using hnone attr (List.mem_append_right _ hmem)
    · intro attr hmem
      simpa using hnone attr (List.mem_append_left _ hmem)

theorem attrs_of_within (h : readRounds kind d = some (msg, rounds, rest)) (m : ℕ) :
    ∃ after, msg.attrs = attributesWithin m rounds ++ after := by
  obtain ⟨area, -, -, -, hattrs, -⟩ := readRounds_eq_some.mp h
  obtain ⟨after, hafter⟩ := roundsWithin_isPrefix (m - kStunHeaderSize) rounds
  refine ⟨after.filterMap Round.attr, ?_⟩
  rw [hattrs, attributesWithin, ← List.filterMap_append, ← hafter]

theorem attributesWithin_eq {d' rest' : List Uint8} {msg' : StunMessage} {rounds' : List Round} {m : ℕ}
    (h : readRounds kind d = some (msg, rounds, rest))
    (h' : readRounds kind d' = some (msg', rounds', rest')) (hmod : d.length % 4 = 0)
    (hmod' : d'.length % 4 = 0) (hm : kStunHeaderSize ≤ m) (hagree : AgreeExceptLength d d' m) :
    attributesWithin m rounds = attributesWithin m rounds' := by
  obtain ⟨area, hheader, hrounds, -⟩ := readRounds_eq_some.mp h
  obtain ⟨area', hheader', hrounds', -⟩ := readRounds_eq_some.mp h'
  obtain ⟨hid, htake⟩ := hagree.header hm hheader hheader'
  have harea : area.length % 4 = 0 := by
    rw [← (drop_of_readHeader hheader).1, List.length_drop, kStunHeaderSize]
    omega
  have harea' : area'.length % 4 = 0 := by
    rw [← (drop_of_readHeader hheader').1, List.length_drop, kStunHeaderSize]
    omega
  rw [← hid] at hrounds'
  rw [attributesWithin, attributesWithin, roundsWithin_eq hrounds hrounds' harea harea' htake]

/-- **What follows the MESSAGE-INTEGRITY has no influence on the types that occur before its
end.** -/
theorem getters_agree_on_settled (kind : MessageClass)
    (hmac : List Uint8 → List Uint8 → List Uint8) (data data' : ℕ → Uint8) (size size' : ℕ)
    (password : List Uint8) (msg msg' : StunMessage) (rounds rounds' : List Round)
    (rest rest' : List Uint8) (m : ℕ)
    (hvalid : validateMessageIntegrity hmac data size password = true)
    (hvalid' : validateMessageIntegrity hmac data' size' password = true)
    (hread : readRounds kind (block data 0 size) = some (msg, rounds, rest))
    (hread' : readRounds kind (block data' 0 size') = some (msg', rounds', rest'))
    (hend : IntegrityEnd data size rounds m)
    (hagree : AgreeExceptLength (block data 0 size) (block data' 0 size') m) :
    attributesWithin m rounds = attributesWithin m rounds' ∧
      ∀ type, Settled (attributesWithin m rounds) msg msg' type →
        msg.getByteString type = msg'.getByteString type ∧
        msg.getUInt32 type = msg'.getUInt32 type ∧
        msg.getUInt64 type = msg'.getUInt64 type ∧
        (type = attrErrorCode → msg.getErrorCode = msg'.getErrorCode) ∧
        ((type = attrMappedAddress → (∃ attr ∈ attributesWithin m rounds, attr.type = type) ∨
            Settled (attributesWithin m rounds) msg msg' attrXorMappedAddress) →
          msg.getAddress type = msg'.getAddress type) := by
  obtain ⟨hmod, -⟩ := integrityPosition_of_valid hvalid
  obtain ⟨hmod', -⟩ := integrityPosition_of_valid hvalid'
  have heq := attributesWithin_eq hread hread' (by rw [length_block]; exact hmod)
    (by rw [length_block]; exact hmod') hend.le hagree
  obtain ⟨after, hattrs⟩ := attrs_of_within hread m
  obtain ⟨after', hattrs'⟩ := attrs_of_within hread' m
  rw [← heq] at hattrs'
  refine ⟨heq, fun type hsettled => ?_⟩
  have hget := getAttribute_of_settled hattrs hattrs' hsettled
  refine ⟨hget, hget, hget, ?_, ?_⟩
  · rintro rfl
    exact hget
  · intro hmapped
    unfold getAddress
    split_ifs with htype
    · subst htype
      rw [hget]
      rcases hmapped rfl with ⟨attr, hmem, hattr⟩ | hxor
      · -- the mapped address is there, so nobody looks for the other one
        have hsome : (msg'.getAttribute attrMappedAddress).isSome := by
          unfold getAttribute
          rw [List.find?_isSome, hattrs']
          exact ⟨attr, List.mem_append_left _ hmem, decide_eq_true hattr⟩
        rw [Option.or_of_isSome hsome, Option.or_of_isSome hsome]
      · rw [getAttribute_of_settled hattrs hattrs' hxor]
    · exact hget

/-- A USERNAME, and one of another user after the MESSAGE-INTEGRITY. -/
theorem getters_agree_username :
    let d := bindingHeader 32 ++ [0, 6, 0, 2, 0x61, 0x62, 0, 0] ++ zeroIntegrity
    let d' := bindingHeader 40 ++ [0, 6, 0, 2, 0x61, 0x62, 0, 0] ++ zeroIntegrity ++
      [0, 6, 0, 2, 0x63, 0x64, 0, 0]
    ∃ msg msg', read .stun d = some (msg, []) ∧ read .stun d' = some (msg', []) ∧
      msg.getByteString attrUsername = msg'.getByteString attrUsername := by
  intro d d'
  let username : Uint8 → Uint8 → Round := fun a b =>
    ⟨attrUsername, 2, some ⟨attrUsername, .byteString [a, b]⟩, 8⟩
  let integrity : Round :=
    ⟨attrMessageIntegrity, 20, some ⟨attrMessageIntegrity, .byteString (List.replicate 20 0)⟩, 24⟩
  have hread : readRounds .stun (block (packetData d) 0 52) = some
      (⟨.stun, 1, 32, List.replicate 12 0x30, [username 0x61 0x62, integrity].filterMap Round.attr⟩,
        [username 0x61 0x62, integrity], []) := by decide
  have hread' : readRounds .stun (block (packetData d') 0 60) = some
      (⟨.stun, 1, 40, List.replicate 12 0x30,
        [username 0x61 0x62, integrity, username 0x63 0x64].filterMap Round.attr⟩,
        [username 0x61 0x62, integrity, username 0x63 0x64], []) := by decide
  have hagree : AgreeExceptLength (block (packetData d) 0 52) (block (packetData d') 0 60) 52 := by
    unfold AgreeExceptLength
    decide
  have hget := (getters_agree_on_settled .stun (fun _ _ => List.replicate 20 0) _ _ 52 60 [] _ _ _ _ _ _
    52 (by decide) (by decide) hread hread' (.inl ⟨28, by decide, rfl⟩)
    hagree).2 attrUsername (.inl ⟨⟨attrUsername, .byteString [0x61, 0x62]⟩, by decide, rfl⟩)
  exact ⟨_, _, by decide, by decide, hget.1⟩

/-- **A USERNAME that is added after the MESSAGE-INTEGRITY is found.** -/
theorem appended_username_found :
    let d := bindingHeader 24 ++ zeroIntegrity
    let d' := bindingHeader 32 ++ zeroIntegrity ++ [0, 6, 0, 2, 0x61, 0x62, 0, 0]
    let hmac : List Uint8 → List Uint8 → List Uint8 := fun _ _ => List.replicate 20 0
    validateMessageIntegrity hmac (packetData d) 44 [] = true ∧
      validateMessageIntegrity hmac (packetData d') 52 [] = true ∧
      integrityPosition (packetData d) 44 = some 20 ∧ integrityPosition (packetData d') 52 = some 20 ∧
      AgreeExceptLength d d' 44 ∧
      ∃ msg msg', read .stun (block (packetData d) 0 44) = some (msg, []) ∧
        read .stun (block (packetData d') 0 52) = some (msg', []) ∧
        msg.getByteString attrUsername ≠ msg'.getByteString attrUsername := by
  refine ⟨by decide, by decide, by decide, by decide,
    by unfold AgreeExceptLength; decide,
    ⟨.stun, 1, 24, List.replicate 12 0x30,
      [⟨attrMessageIntegrity, .byteString (List.replicate 20 0)⟩]⟩,
    ⟨.stun, 1, 32, List.replicate 12 0x30,
      [⟨attrMessageIntegrity, .byteString (List.replicate 20 0)⟩,
        ⟨attrUsername, .byteString [0x61, 0x62]⟩]⟩,
    by decide, by decide, by decide⟩

end Libjingle
