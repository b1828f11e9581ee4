import Libjingle.Lib.Least
import Libjingle.P2P.Sort
import Libjingle.P2P.Waning

/-!
# The timeouts of a connection and the clock (`p2p/base/port.cc`, `p2p/base/p2ptransportchannel.cc`)

`UpdateState` and `FindNextPingableConnection` add a delay to a recorded time and compare the sum with
the current time, as numbers of 32 bits.

Main results: **`states_shift`**, **`choice_shift`**, **`shiftInvariant_iff`**.
-/

variable {now : Uint32} {conn : Connection} {b c n : ℕ}

namespace Libjingle.P2P

open Lib

/-! ## Deadlines -/

/-- How long ago a deadline was; one to come counts as before the wrap. -/
def overdue (now deadline : Uint32) : ℕ := (now - deadline).toNat

/-- The same for a deadline that has to be over. -/
def lapse (now deadline : Uint32) : ℕ := if deadline = now then 2 ^ 32 else overdue now deadline

theorem overdue_lt (now deadline : Uint32) : overdue now deadline < 2 ^ 32 := (now - deadline).isLt

theorem overdue_eq_zero {deadline : Uint32} : overdue now deadline = 0 ↔ deadline = now := by
  rw [overdue, ← BitVec.toNat_inj]
  have hnow := now.isLt
  have hdeadline := deadline.isLt
  rw [BitVec.toNat_sub]
  omega

theorem lapse_ne_zero (now deadline : Uint32) : lapse now deadline ≠ 0 := by
  unfold lapse
  split
  · exact Nat.two_pow_pos 32 |>.ne'
  · exact fun h => absurd (overdue_eq_zero.mp h) ‹_›

theorem le_lapse {deadline : Uint32} : 2 ^ 32 ≤ lapse now deadline ↔ deadline = now := by
  unfold lapse
  have hlt := overdue_lt now deadline
  split
  · exact ⟨fun _ => ‹_›, fun _ => le_rfl⟩
  · exact ⟨fun h => absurd hlt (not_lt.mpr h), fun h => absurd h ‹_›⟩

theorem le_shift (now deadline k : Uint32) : deadline + k ≤ now + k ↔ overdue now deadline ≤ (now + k).toNat := by
  have hnow := now.isLt
  have hdeadline := deadline.isLt
  have hk := k.isLt
  rw [BitVec.le_def, overdue, BitVec.toNat_sub, BitVec.toNat_add, BitVec.toNat_add]
  omega

theorem lt_shift (now deadline k : Uint32) : deadline + k < now + k ↔ lapse now deadline ≤ (now + k).toNat := by
  have hnow := now.isLt
  have hdeadline := deadline.isLt
  have hk := k.isLt
  unfold lapse overdue
  split
  · rename_i heq
    subst heq
    have := (deadline + k).isLt
    simp only [BitVec.lt_def, lt_irrefl, false_iff, not_le]
    omega
  · rename_i hne
    rw [← BitVec.toNat_inj] at hne
    rw [BitVec.lt_def, BitVec.toNat_sub, BitVec.toNat_add, BitVec.toNat_add]
    omega

theorem shifted_add (t d k : Uint32) : t + k + d = t + d + k := by
  rw [BitVec.add_assoc, BitVec.add_comm k, ← BitVec.add_assoc]

/-! ## Other readings of the clock -/

/-- The recorded times, `k` milliseconds later. -/
def Connection.shift (conn : Connection) (k : Uint32) : Connection :=
  { conn with
    lastPingSent := conn.lastPingSent + k
    lastPingReceived := conn.lastPingReceived + k
    lastDataReceived := conn.lastDataReceived + k
    pingsSinceLastResponse := conn.pingsSinceLastResponse.map (· + k) }

/-- The recorded times are those of events within the last `2 ^ 31` milliseconds. -/
structure Connection.Recent (conn : Connection) (now : Uint32) : Prop where
  lastPingSent : (now - conn.lastPingSent).toNat < 2 ^ 31
  lastPingReceived : (now - conn.lastPingReceived).toNat < 2 ^ 31
  lastDataReceived : (now - conn.lastDataReceived).toNat < 2 ^ 31
  pings : ∀ t ∈ conn.pingsSinceLastResponse, (now - t).toNat < 2 ^ 31

namespace Connection

variable (conn : Connection)

/-! ### The tests of `UpdateState` -/

def readFrom (now : Uint32) : ℕ :=
  max (overdue now (conn.lastPingReceived + connectionReadTimeout))
    (overdue now (conn.lastDataReceived + connectionReadTimeout))

def withoutResponseFrom (maximumTime now : Uint32) : ℕ :=
  match conn.pingsSinceLastResponse with
  | [] => 2 ^ 32
  | first :: _ => lapse now (first + maximumTime)

/-- The reading from which on `TooManyFailures` holds. -/
def failuresFrom (now : Uint32) : ℕ :=
  if conn.pingsSinceLastResponse.length < connectionWriteConnectFailures then 2 ^ 32
  else
    lapse now (conn.pingsSinceLastResponse.getD (connectionWriteConnectFailures - 1) 0 +
      conservativeRTTEstimate conn.rtt)

/-- From when on a writable connection becomes unreliable. -/
def unreliableFrom (now : Uint32) : ℕ :=
  max (conn.failuresFrom now) (conn.withoutResponseFrom connectionWriteConnectTimeout now)

variable {conn}

theorem readTimesOut_shift (googleIce : Bool) (now k : Uint32) :
    (conn.shift k).readTimesOut googleIce (now + k) = true ↔
      (googleIce = true ∧ conn.readState = .readable) ∧ conn.readFrom now ≤ (now + k).toNat := by
  have hping := le_shift now (conn.lastPingReceived + connectionReadTimeout) k
  have hdata := le_shift now (conn.lastDataReceived + connectionReadTimeout) k
  rw [← shifted_add] at hping hdata
  rw [readFrom, max_le_iff, ← hping, ← hdata, readTimesOut, Bool.and_eq_true, Bool.and_eq_true,
    Bool.and_eq_true, beq_iff_eq, decide_eq_true_eq, decide_eq_true_eq]
  exact and_assoc

theorem tooLongWithoutResponse_shift (maximumTime now k : Uint32) :
    tooLongWithoutResponse (conn.shift k).pingsSinceLastResponse maximumTime (now + k) = true ↔
      conn.withoutResponseFrom maximumTime now ≤ (now + k).toNat := by
  unfold withoutResponseFrom
  have hlt := (now + k).isLt
  cases h : conn.pingsSinceLastResponse with
  | nil => simpa [shift, h, tooLongWithoutResponse] using hlt
  | cons first rest =>
    rw [shift, h, List.map_cons, tooLongWithoutResponse, decide_eq_true_eq,
      shifted_add first maximumTime k, lt_shift]

theorem tooManyFailures_shift (now k : Uint32) :
    tooManyFailures (conn.shift k).pingsSinceLastResponse connectionWriteConnectFailures
        (conservativeRTTEstimate conn.rtt) (now + k) = true ↔
      conn.failuresFrom now ≤ (now + k).toNat := by
  unfold failuresFrom tooManyFailures
  have hlt := (now + k).isLt
  rw [shift, List.length_map]
  split
  · simpa using hlt
  · rename_i hlength
    have hin : connectionWriteConnectFailures - 1 < conn.pingsSinceLastResponse.length := by
      unfold connectionWriteConnectFailures at *
      omega
    have hin' : connectionWriteConnectFailures - 1 <
        (conn.pingsSinceLastResponse.map (· + k)).length := by rwa [List.length_map]
    rw [decide_eq_true_eq, List.getD_eq_getElem?_getD, List.getD_eq_getElem?_getD,
      List.getElem?_eq_getElem hin, List.getElem?_eq_getElem hin', List.getElem_map, Option.getD_some,
      Option.getD_some, shifted_add conn.pingsSinceLastResponse[_], lt_shift]

theorem becomesUnreliable_shift (now k : Uint32) :
    (conn.shift k).becomesUnreliable (now + k) = true ↔
      conn.writeState = .writable ∧ conn.unreliableFrom now ≤ (now + k).toNat := by
  rw [becomesUnreliable, Bool.and_eq_true, Bool.and_eq_true, beq_iff_eq, unreliableFrom, max_le_iff,
    tooLongWithoutResponse_shift]
  have hfailures := @tooManyFailures_shift conn now k
  rw [show (conn.shift k).rtt = conn.rtt from rfl, hfailures, and_assoc]
  rfl

theorem writeTimesOut_shift (now k : Uint32) :
    (conn.shift k).writeTimesOut (now + k) = true ↔
      (conn.writeState = .unreliable ∨ conn.writeState = .init) ∧
        conn.withoutResponseFrom connectionWriteTimeout now ≤ (now + k).toNat := by
  rw [writeTimesOut, Bool.and_eq_true, Bool.or_eq_true, beq_iff_eq, beq_iff_eq,
    tooLongWithoutResponse_shift]
  rfl

/-! ### The states -/

variable (conn)

def updated (googleIce : Bool) (now : Uint32) : ReadState × WriteState :=
  let write := if conn.becomesUnreliable now then .unreliable else conn.writeState
  (if conn.readTimesOut googleIce now then .timeout else conn.readState,
    if ({ conn with writeState := write } : Connection).writeTimesOut now then .timeout else write)

def statesFrom (googleIce : Bool) (now : Uint32) (n : ℕ) : ReadState × WriteState :=
  let timesOut (value : WriteState) : WriteState :=
    if conn.withoutResponseFrom connectionWriteTimeout now ≤ n then .timeout else value
  (if (googleIce = true ∧ conn.readState = .readable) ∧ conn.readFrom now ≤ n then .timeout
    else conn.readState,
    match conn.writeState with
    | .writable => if conn.unreliableFrom now ≤ n then timesOut .unreliable else .writable
    | .unreliable => timesOut .unreliable
    | .init => timesOut .init
    | .timeout => .timeout)

variable {conn}

theorem updated_shift (googleIce : Bool) (now k : Uint32) :
    (conn.shift k).updated googleIce (now + k) = conn.statesFrom googleIce now (now + k).toNat := by
  have htimesOut (value : WriteState) :
      ({ conn.shift k with writeState := value } : Connection).writeTimesOut (now + k) = true ↔
        (value = .unreliable ∨ value = .init) ∧
          conn.withoutResponseFrom connectionWriteTimeout now ≤ (now + k).toNat :=
    @writeTimesOut_shift { conn with writeState := value } now k
  unfold updated statesFrom
  dsimp only
  simp only [htimesOut, readTimesOut_shift, becomesUnreliable_shift]
  rw [show (conn.shift k).writeState = conn.writeState from rfl,
    show (conn.shift k).readState = conn.readState from rfl]
  generalize (now + k).toNat = n
  cases hwrite : conn.writeState with
  | writable => by_cases hfrom : conn.unreliableFrom now ≤ n <;> simp [hfrom]
  | unreliable => simp
  | init => simp
  | timeout => simp

/-- No test of `UpdateState` matters, or its deadline is just now. -/
structure ClockFree (conn : Connection) (googleIce : Bool) (now : Uint32) : Prop where
  read : googleIce = true → conn.readState = .readable →
    conn.lastPingReceived + connectionReadTimeout = now ∧
      conn.lastDataReceived + connectionReadTimeout = now
  connect : conn.writeState = .writable →
    conn.pingsSinceLastResponse.length < connectionWriteConnectFailures ∨
      conn.pingsSinceLastResponse.getD (connectionWriteConnectFailures - 1) 0 +
        conservativeRTTEstimate conn.rtt = now ∨
      ∀ first ∈ conn.pingsSinceLastResponse.head?, first + connectionWriteConnectTimeout = now
  write : conn.writeState = .unreliable ∨ conn.writeState = .init →
    ∀ first ∈ conn.pingsSinceLastResponse.head?, first + connectionWriteTimeout = now

theorem le_withoutResponseFrom (maximumTime now : Uint32) :
    2 ^ 32 ≤ conn.withoutResponseFrom maximumTime now ↔
      ∀ first ∈ conn.pingsSinceLastResponse.head?, first + maximumTime = now := by
  unfold withoutResponseFrom
  cases conn.pingsSinceLastResponse with
  | nil => simp
  | cons first rest =>
    simp only [List.head?_cons, Option.mem_some_iff, forall_eq']
    exact le_lapse

theorem withoutResponseFrom_ne_zero (conn : Connection) (maximumTime now : Uint32) :
    conn.withoutResponseFrom maximumTime now ≠ 0 := by
  unfold withoutResponseFrom
  cases conn.pingsSinceLastResponse with
  | nil => exact Nat.two_pow_pos 32 |>.ne'
  | cons first rest => exact lapse_ne_zero _ _

theorem le_unreliableFrom (now : Uint32) :
    2 ^ 32 ≤ conn.unreliableFrom now ↔
      conn.pingsSinceLastResponse.length < connectionWriteConnectFailures ∨
        conn.pingsSinceLastResponse.getD (connectionWriteConnectFailures - 1) 0 +
          conservativeRTTEstimate conn.rtt = now ∨
        ∀ first ∈ conn.pingsSinceLastResponse.head?, first + connectionWriteConnectTimeout = now := by
  rw [unreliableFrom, le_max_iff, le_withoutResponseFrom, failuresFrom]
  split
  · simp [*]
  · rw [le_lapse]
    simp [*]

theorem unreliableFrom_ne_zero (conn : Connection) (now : Uint32) : conn.unreliableFrom now ≠ 0 := by
  have hpos := withoutResponseFrom_ne_zero conn connectionWriteConnectTimeout now
  have hle : conn.withoutResponseFrom connectionWriteConnectTimeout now ≤ conn.unreliableFrom now :=
    le_max_right _ _
  omega

theorem readFrom_lt (conn : Connection) (now : Uint32) : conn.readFrom now < 2 ^ 32 :=
  max_lt (overdue_lt _ _) (overdue_lt _ _)

theorem readFrom_eq_zero : conn.readFrom now = 0 ↔
    conn.lastPingReceived + connectionReadTimeout = now ∧
      conn.lastDataReceived + connectionReadTimeout = now := by
  rw [readFrom, ← overdue_eq_zero, ← overdue_eq_zero]
  omega

/-- **The states do not depend on the reading exactly if no test of them does**. -/
theorem statesFrom_const {googleIce : Bool} {m : ℕ} (hm : m < 2 ^ 32) :
    (∀ n < 2 ^ 32, conn.statesFrom googleIce now n = conn.statesFrom googleIce now m) ↔
      conn.ClockFree googleIce now := by
  have hread := readFrom_lt conn now
  have hpos := unreliableFrom_ne_zero conn now
  have hpos' := withoutResponseFrom_ne_zero conn connectionWriteTimeout now
  constructor
  · intro h
    -- the first and the last reading of the clock
    have hends : conn.statesFrom googleIce now 0 = conn.statesFrom googleIce now (2 ^ 32 - 1) :=
      (h 0 (by omega)).trans (h (2 ^ 32 - 1) (by omega)).symm
    have hreads := congrArg Prod.fst hends
    have hwrites := congrArg Prod.snd hends
    simp only [statesFrom] at hreads hwrites
    refine ⟨fun hgoogle hreadable => ?_, fun hwritable => ?_, fun hstate => ?_⟩
    · rw [hgoogle, hreadable, if_pos (show _ ∧ _ ≤ 2 ^ 32 - 1 from ⟨⟨rfl, rfl⟩, by omega⟩)] at hreads
      split at hreads
      · rename_i hzero
        exact readFrom_eq_zero.mp (Nat.le_zero.mp hzero.2)
      · cases hreads
    · rw [← le_unreliableFrom]
      rw [hwritable] at hwrites
      dsimp only at hwrites
      rw [if_neg (by omega)] at hwrites
      by_contra hlt
      rw [if_pos (by omega)] at hwrites
      split at hwrites <;> cases hwrites
    · rw [← le_withoutResponseFrom]
      by_contra hlt
      rcases hstate with hstate | hstate <;>
      · rw [hstate] at hwrites
        dsimp only at hwrites
        rw [if_neg (by omega), if_pos (by omega)] at hwrites
        cases hwrites
  · intro h n hn
    have hreads : ∀ n < 2 ^ 32, ((googleIce = true ∧ conn.readState = .readable) ∧ conn.readFrom now ≤ n) =
        (googleIce = true ∧ conn.readState = .readable) := by
      intro n hn
      refine propext ⟨And.left, fun hr => ⟨hr, ?_⟩⟩
      rw [readFrom_eq_zero.mpr (h.read hr.1 hr.2)]
      exact Nat.zero_le n
    unfold statesFrom
    simp only [hreads n hn, hreads m hm]
    congr 1
    cases hwrite : conn.writeState with
    | writable =>
      have hnever := (le_unreliableFrom now).mpr (h.connect hwrite)
      dsimp only
      rw [if_neg (by omega), if_neg (by omega)]
    | unreliable =>
      have hnever := (le_withoutResponseFrom _ now).mpr (h.write (.inl hwrite))
      dsimp only
      rw [if_neg (by omega), if_neg (by omega)]
    | init =>
      have hnever := (le_withoutResponseFrom _ now).mpr (h.write (.inr hwrite))
      dsimp only
      rw [if_neg (by omega), if_neg (by omega)]
    | timeout => rfl

end Connection

namespace P2PTransportChannel

variable {s : P2PTransportChannel}

/-! ## `UpdateState` -/

/-- All recorded times, `k` milliseconds later. -/
def shift (s : P2PTransportChannel) (k : Uint32) : P2PTransportChannel :=
  { s with connectionAt := fun c => (s.connectionAt c).map fun conn => conn.shift k }

@[simp] theorem connectionAt_shift (s : P2PTransportChannel) (k : Uint32) (c : ℕ) :
    (s.shift k).connectionAt c = (s.connectionAt c).map fun conn => conn.shift k := rfl

/-- The two states of a connection. -/
def statesAt (s : P2PTransportChannel) (c : ℕ) : Option (ReadState × WriteState) :=
  (s.connectionAt c).map fun conn => (conn.readState, conn.writeState)

theorem test_eq (h : s.connectionAt c = some conn) (q : Connection → Bool) : s.test c q = q conn := by
  rw [test, h, Option.any_some]

theorem portOf_shift (s : P2PTransportChannel) (k : Uint32) (c : ℕ) : (s.shift k).portOf c = s.portOf c := by
  rw [portOf, portOf, connectionAt_shift]
  cases s.connectionAt c with
  | none => rfl
  | some conn => rfl

theorem statesAt_updateState (h : s.connectionAt c = some conn) (now : Uint32) : (s.updateState c now).statesAt c =
      some (conn.updated ((s.portOf c).any (·.isGoogleIce)) now) := by
  unfold updateState
  dsimp only
  generalize (s.portOf c).any (·.isGoogleIce) = googleIce
  obtain ⟨read, hread, hs₁⟩ : ∃ read, read = (if conn.readTimesOut googleIce now then .timeout
      else conn.readState) ∧ (if s.test c (·.readTimesOut googleIce now) then s.setReadState c .timeout
      else s).connectionAt c = some { conn with readState := read } := by
    refine ⟨_, rfl, ?_⟩
    rw [test_eq h]
    split
    · exact connectionAt_setReadState h _
    · exact h
  generalize (if s.test c (·.readTimesOut googleIce now) then s.setReadState c .timeout else s) = s₁ at *
  obtain ⟨write, hwrite, hs₂⟩ : ∃ write, write = (if conn.becomesUnreliable now then .unreliable
      else conn.writeState) ∧ (if s₁.test c (·.becomesUnreliable now) then s₁.setWriteState c .unreliable
      else s₁).connectionAt c = some { conn with readState := read, writeState := write } := by
    refine ⟨_, rfl, ?_⟩
    rw [test_eq hs₁, show ({ conn with readState := read } : Connection).becomesUnreliable now =
      conn.becomesUnreliable now from rfl]
    split
    · exact connectionAt_setWriteState hs₁ _
    · exact hs₁
  generalize (if s₁.test c (·.becomesUnreliable now) then s₁.setWriteState c .unreliable else s₁) = s₂ at *
  have hfinal : (if s₂.test c (·.writeTimesOut now) then s₂.setWriteState c .timeout
      else s₂).connectionAt c = some { conn with
        readState := read
        writeState := if ({ conn with writeState := write } : Connection).writeTimesOut now then .timeout
          else write } := by
    rw [test_eq hs₂, show ({ conn with readState := read, writeState := write } : Connection).writeTimesOut
      now = ({ conn with writeState := write } : Connection).writeTimesOut now from rfl]
    split
    · exact connectionAt_setWriteState hs₂ _
    · exact hs₂
  rw [statesAt, hfinal, Option.map_some, Connection.updated, ← hread, ← hwrite]

theorem updateState_none (h : s.connectionAt c = none) (now : Uint32) : s.updateState c now = s := by
  have htest (q : Connection → Bool) : s.test c q = false := by rw [test, h, Option.any_none]
  simp [updateState, htest]

theorem shift_zero (s : P2PTransportChannel) : s.shift 0 = s := by
  have hconn (conn : Connection) : conn.shift 0 = conn := by simp [Connection.shift]
  have hsame : (fun c => (s.connectionAt c).map fun conn => conn.shift 0) = s.connectionAt := by
    funext c
    rw [funext hconn, Option.map_id']
  rw [shift, hsame]

/-- **The states after a shift of the clock** are those at another reading. -/
theorem states_shift (h : s.connectionAt c = some conn) (now k : Uint32) :
    ((s.shift k).updateState c (now + k)).statesAt c =
      some (conn.statesFrom ((s.portOf c).any (·.isGoogleIce)) now (now + k).toNat) := by
  have hshift : (s.shift k).connectionAt c = some (conn.shift k) := by
    rw [connectionAt_shift, h, Option.map_some]
  rw [statesAt_updateState hshift, portOf_shift, Connection.updated_shift]

/-! ## `FindNextPingableConnection` -/

def pingables (s : P2PTransportChannel) : List ℕ := s.connections.filter s.isPingable

/-- When a connection was pinged last. -/
def sentAt (s : P2PTransportChannel) (c : ℕ) : Uint32 :=
  ((s.connectionAt c).map Connection.lastPingSent).getD 0

/-- How long ago a connection was pinged last. -/
def age (s : P2PTransportChannel) (now : Uint32) (c : ℕ) : ℕ := overdue now (s.sentAt c)

def writableBest (s : P2PTransportChannel) : Option ℕ :=
  s.bestConnection.filter fun c => s.test c (·.writable)

def sentFrom (n age : ℕ) : ℕ := if age ≤ n then n - age else n + 2 ^ 32 - age

def choiceFrom (s : P2PTransportChannel) (now : Uint32) (n : ℕ) : Option ℕ :=
  if s.writableBest.any fun b => overdue now (s.sentAt b + maxCurrentWritableDelay) ≤ n then s.writableBest
  else (least (fun c => sentFrom n (s.age now c)) s.pingables (2 ^ 32 - 1)).1

theorem overdue_add (now t d : Uint32) :
    overdue now (t + d) =
      if d.toNat ≤ overdue now t then overdue now t - d.toNat else overdue now t + 2 ^ 32 - d.toNat := by
  have hnow := now.isLt
  have ht := t.isLt
  have hd := d.isLt
  have hsince : overdue now t = (2 ^ 32 - t.toNat + now.toNat) % 2 ^ 32 := BitVec.toNat_sub now t
  have hover : overdue now (t + d) = (2 ^ 32 - (t.toNat + d.toNat) % 2 ^ 32 + now.toNat) % 2 ^ 32 := by
    rw [overdue, BitVec.toNat_sub, BitVec.toNat_add]
  generalize overdue now t = since at *
  rw [hover]
  split <;> omega

theorem toNat_sent_add (now t k : Uint32) : (t + k).toNat = sentFrom (now + k).toNat (overdue now t) := by
  have hnow := now.isLt
  have ht := t.isLt
  have hk := k.isLt
  have hsince : overdue now t = (2 ^ 32 - t.toNat + now.toNat) % 2 ^ 32 := BitVec.toNat_sub now t
  generalize overdue now t = since at *
  have hsent := BitVec.toNat_add t k
  have hreading := BitVec.toNat_add now k
  unfold sentFrom
  generalize (now + k).toNat = n at *
  rw [hsent]
  split <;> omega

theorem exists_of_isPingable (h : s.isPingable c = true) : ∃ conn, s.connectionAt c = some conn := by
  obtain ⟨conn, hconn, -⟩ := exists_of_test h
  exact ⟨conn, hconn⟩

theorem findNextPingableConnection_eq (s : P2PTransportChannel) (now : Uint32) :
    s.findNextPingableConnection now =
      if s.bestConnection.any fun c => s.test c fun conn =>
          conn.writable && conn.lastPingSent + maxCurrentWritableDelay ≤ now then s.bestConnection
      else (least (fun c => (s.sentAt c).toNat) s.pingables (2 ^ 32 - 1)).1 := by
  unfold findNextPingableConnection
  congr 1
  rw [pingables, least, List.foldl_filter]
  refine congrArg Prod.fst (List.foldl_hom (Prod.map id BitVec.toNat) fun o c => ?_).symm
  by_cases hpingable : s.isPingable c = true
  · obtain ⟨conn, hconn⟩ := exists_of_isPingable hpingable
    have hsent : s.sentAt c = conn.lastPingSent := by rw [sentAt, hconn]; rfl
    rw [hsent, if_pos hpingable, hconn]
    simp only [hpingable, Bool.true_and, decide_eq_true_eq, BitVec.lt_def, Prod.map_snd]
    split <;> rfl
  · rw [if_neg hpingable]
    simp only [Bool.eq_false_iff.mpr hpingable, Bool.false_and, Bool.false_eq_true, if_false]
    split <;> rfl

theorem writableBest_eq_some : s.writableBest = some b ↔
    s.bestConnection = some b ∧ ∃ conn, s.connectionAt b = some conn ∧ conn.writable = true := by
  rw [writableBest, Option.filter_eq_some_iff]
  refine and_congr_right fun _ => ⟨exists_of_test, ?_⟩
  rintro ⟨conn, hconn, hwritable⟩
  rw [test_eq hconn, hwritable]

/-- **The connection to be pinged after a shift of the clock** is that at another reading. -/
theorem choice_shift (s : P2PTransportChannel) (now k : Uint32) :
    (s.shift k).findNextPingableConnection (now + k) = s.choiceFrom now (now + k).toNat := by
  have htest (c : ℕ) (q : Connection → Bool) :
      (s.shift k).test c q = s.test c fun conn => q (conn.shift k) := by
    rw [test, connectionAt_shift, Option.any_map]
    rfl
  have hpingables : (s.shift k).pingables = s.pingables := by
    unfold pingables isPingable
    simp only [htest]
    rfl
  have hloop : (least (fun c => ((s.shift k).sentAt c).toNat) (s.shift k).pingables (2 ^ 32 - 1)).1 =
      (least (fun c => sentFrom (now + k).toNat (s.age now c)) s.pingables (2 ^ 32 - 1)).1 := by
    rw [hpingables]
    refine congrArg Prod.fst (least_congr fun c hc => ?_)
    obtain ⟨conn, hconn⟩ := exists_of_isPingable (List.of_mem_filter hc)
    rw [age, ← toNat_sent_add, sentAt, sentAt, connectionAt_shift, hconn]
    rfl
  rw [findNextPingableConnection_eq, choiceFrom, hloop]
  have hbest : ((s.shift k).bestConnection.any fun c => (s.shift k).test c fun conn =>
      conn.writable && conn.lastPingSent + maxCurrentWritableDelay ≤ now + k) =
      s.writableBest.any fun b => overdue now (s.sentAt b + maxCurrentWritableDelay) ≤ (now + k).toNat := by
    show s.bestConnection.any _ = _
    unfold writableBest
    cases s.bestConnection with
    | none => rfl
    | some b =>
      rw [Option.any_some, htest]
      cases hconn : s.connectionAt b with
      | none => simp [test, hconn, Option.filter]
      | some conn =>
        have hsent : s.sentAt b = conn.lastPingSent := by rw [sentAt, hconn]; rfl
        have hdue : (decide ((conn.shift k).lastPingSent + maxCurrentWritableDelay ≤ now + k)) =
            decide (overdue now (conn.lastPingSent + maxCurrentWritableDelay) ≤ (now + k).toNat) := by
          rw [Connection.shift, shifted_add, decide_eq_decide, le_shift]
        have hwritable : (conn.shift k).writable = conn.writable := rfl
        rw [test_eq hconn, hdue, hwritable, Option.filter, test_eq hconn]
        cases conn.writable <;> simp [hsent]
  rw [hbest]
  split
  · rename_i hany
    obtain ⟨b, hb, -⟩ := Option.any_eq_true _ _ |>.mp hany
    rw [hb]
    exact (writableBest_eq_some.mp hb).1
  · rfl

/-- The connection to be pinged does not depend on the clock: there is none, or it is the best one,
pinged just now, or the one pinged longest ago in any case. -/
structure ChoiceFree (s : P2PTransportChannel) (now : Uint32) : Prop where
  idle : s.writableBest = none → s.pingables = []
  best : ∀ b, s.writableBest = some b →
    s.sentAt b + maxCurrentWritableDelay = now ∨
      FirstLeast (fun c => OrderDual.toDual (s.age now c)) s.pingables b ∧
        (s.age now b = 0 ∨ maxCurrentWritableDelay.toNat < s.age now b ∧
          ∀ c ∈ s.pingables, s.age now b ≤ s.age now c + maxCurrentWritableDelay.toNat)

theorem sentFrom_self (n : ℕ) : sentFrom n n = 0 := by
  rw [sentFrom, if_pos le_rfl, Nat.sub_self]

theorem eq_of_sentFrom {a : ℕ} (hn : n < 2 ^ 32) (ha : a < 2 ^ 32) (h : sentFrom n a = 0) : a = n := by
  unfold sentFrom at h
  split at h <;> omega

theorem exists_sentFrom {a : ℕ} (ha : a < 2 ^ 32) : ∃ n < 2 ^ 32, sentFrom n a = 2 ^ 32 - 1 := by
  unfold sentFrom
  by_cases hzero : a = 0
  · exact ⟨2 ^ 32 - 1, by omega, by rw [if_pos (by omega)]; omega⟩
  · exact ⟨a - 1, by omega, by rw [if_neg (by omega)]; omega⟩

theorem choiceFrom_none (h : s.writableBest = none) (now : Uint32) (n : ℕ) :
    s.choiceFrom now n = (least (fun c => sentFrom n (s.age now c)) s.pingables (2 ^ 32 - 1)).1 := by
  rw [choiceFrom, h]
  rfl

theorem choiceFrom_some (h : s.writableBest = some b) (now : Uint32) (n : ℕ) :
    s.choiceFrom now n =
      if overdue now (s.sentAt b + maxCurrentWritableDelay) ≤ n then some b
      else (least (fun c => sentFrom n (s.age now c)) s.pingables (2 ^ 32 - 1)).1 := by
  rw [choiceFrom, h, Option.any_some]
  simp only [decide_eq_true_eq]

theorem idle_of_const (hnone : s.writableBest = none)
    (h : ∀ n < 2 ^ 32, ∀ n' < 2 ^ 32, s.choiceFrom now n = s.choiceFrom now n') : s.pingables = [] := by
  by_contra hne
  obtain ⟨c, hc⟩ := List.exists_mem_of_ne_nil _ hne
  have hage := overdue_lt now (s.sentAt c)
  -- `c` was pinged when the clock showed 0
  rcases least_cases (fun d => sentFrom (s.age now c) (s.age now d)) s.pingables (2 ^ 32 - 1) with
    ⟨-, hall⟩ | ⟨b, hb, -, hfirst⟩
  · have hself := hall c hc
    rw [sentFrom_self] at hself
    omega
  · obtain ⟨n, hn, hsent⟩ := exists_sentFrom (overdue_lt now (s.sentAt b))
    have hchoice := h n hn (s.age now c) hage
    rw [choiceFrom_none hnone, choiceFrom_none hnone, hb] at hchoice
    have hlt := (FirstLeast.of_least hchoice).1
    exact absurd hsent hlt.ne

theorem overdue_sent (now : Uint32) (b : ℕ) :
    overdue now (s.sentAt b + maxCurrentWritableDelay) =
      if 900 ≤ s.age now b then s.age now b - 900 else s.age now b + 2 ^ 32 - 900 := by
  have hdelay : maxCurrentWritableDelay.toNat = 900 := by decide
  rw [overdue_add, hdelay, age]

theorem best_of_const (hbest : s.writableBest = some b) (hrecent : ∀ c ∈ s.pingables, s.age now c < 2 ^ 31)
    (h : ∀ n < 2 ^ 32, ∀ n' < 2 ^ 32, s.choiceFrom now n = s.choiceFrom now n')
    (hnow : s.sentAt b + maxCurrentWritableDelay ≠ now) :
    FirstLeast (fun c => OrderDual.toDual (s.age now c)) s.pingables b ∧
      (s.age now b = 0 ∨ maxCurrentWritableDelay.toNat < s.age now b ∧
        ∀ c ∈ s.pingables, s.age now b ≤ s.age now c + maxCurrentWritableDelay.toNat) := by
  have hdelay : maxCurrentWritableDelay.toNat = 900 := by decide
  have hpos : overdue now (s.sentAt b + maxCurrentWritableDelay) ≠ 0 := fun hzero =>
    hnow (overdue_eq_zero.mp hzero)
  have hlast := overdue_lt now (s.sentAt b + maxCurrentWritableDelay)
  have hb := overdue_lt now (s.sentAt b)
  rw [overdue_sent] at hpos hlast
  -- before the deadline the loop finds the best connection, too
  have hloop (n : ℕ) (hn : n < if 900 ≤ s.age now b then s.age now b - 900
      else s.age now b + 2 ^ 32 - 900) :
      sentFrom n (s.age now b) < 2 ^ 32 - 1 ∧
        FirstLeast (fun c => sentFrom n (s.age now c)) s.pingables b := by
    have hchoice := h n (by omega) (2 ^ 32 - 1) (by omega)
    rw [choiceFrom_some hbest, choiceFrom_some hbest, overdue_sent, if_neg (by omega),
      if_pos (by omega)] at hchoice
    exact FirstLeast.of_least hchoice
  have hmem := (hloop 0 (by omega)).2.mem
  have hzero (c : ℕ) (hc : c ∈ s.pingables) (hn : s.age now c < if 900 ≤ s.age now b then
      s.age now b - 900 else s.age now b + 2 ^ 32 - 900) : s.age now b = s.age now c := by
    have hle := (hloop _ hn).2.le hc
    rw [sentFrom_self] at hle
    exact eq_of_sentFrom (hrecent c hc |>.trans (by omega)) hb (Nat.le_zero.mp hle)
  rw [hdelay]
  have hfirst := (hloop 0 (by omega)).2
  rcases Nat.lt_trichotomy (s.age now b) 900 with hlt | heq | hgt
  · rw [if_neg (by omega)] at hloop hzero
    by_cases hage : s.age now b = 0
    · have hall (c : ℕ) (hc : c ∈ s.pingables) : s.age now c = 0 := by
        have hrecent := hrecent c hc
        rw [← hage]
        exact (hzero c hc (by omega)).symm
      refine ⟨hfirst.congr (fun c hc hlt => ?_) (fun c hc _ => ?_), .inl hage⟩
      · rw [hall c hc, hage] at hlt
        exact absurd hlt (lt_irrefl _)
      · rw [hall c hc, hage]
    · have hbound := (hloop (s.age now b - 1) (by omega)).1
      unfold sentFrom at hbound
      rw [if_neg (by omega)] at hbound
      omega
  · rw [if_pos (by omega)] at hpos
    omega
  · rw [if_pos (by omega)] at hloop hzero
    have hlate (c : ℕ) (hc : c ∈ s.pingables) : s.age now b ≤ s.age now c + 900 := by
      by_contra hlt
      have := hzero c hc (by omega)
      omega
    refine ⟨hfirst.congr (fun c hc hlt => ?_) (fun c hc hle => ?_), .inr ⟨hgt, hlate⟩⟩
    · have := hlate c hc
      have := hrecent c hc
      simp only [sentFrom, OrderDual.toDual_lt_toDual] at hlt ⊢
      rw [if_neg (by omega), if_neg (by omega)] at hlt
      omega
    · have := hlate c hc
      have := hrecent c hc
      simp only [sentFrom, OrderDual.toDual_le_toDual] at hle ⊢
      rw [if_neg (by omega), if_neg (by omega)] at hle
      omega

theorem sentFrom_lt_sentFrom {a : ℕ} (hab : a < b) (hb : b < 2 ^ 32) (hn : n < a) : sentFrom n b < sentFrom n a := by
  unfold sentFrom
  rw [if_neg (by omega), if_neg (by omega)]
  omega

theorem sentFrom_le_sentFrom {a : ℕ} (hab : a ≤ b) (hb : b < 2 ^ 32) (hn : n < a) : sentFrom n b ≤ sentFrom n a := by
  rcases hab.lt_or_eq with hlt | rfl
  · exact (sentFrom_lt_sentFrom hlt hb hn).le
  · exact le_rfl

theorem ChoiceFree.choiceFrom (h : s.ChoiceFree now)
    (hbest : s.writableBest = some b) : s.choiceFrom now n = some b := by
  rw [choiceFrom_some hbest]
  have hdelay : maxCurrentWritableDelay.toNat = 900 := by decide
  rcases h.best b hbest with hnow | ⟨hfirst, hage⟩
  · have hzero := overdue_eq_zero.mpr hnow
    rw [hzero, if_pos (Nat.zero_le n)]
  · have hle (c : ℕ) (hc : c ∈ s.pingables) : s.age now c ≤ s.age now b :=
      OrderDual.toDual_le_toDual.mp (hfirst.le hc)
    have hb : s.age now b < 2 ^ 32 := overdue_lt now (s.sentAt b)
    rw [hdelay] at hage
    split
    · rfl
    · rename_i hearly
      rw [overdue_sent] at hearly
      rcases hage with hzero | ⟨hgt, hlate⟩
      · rw [hzero, if_neg (by decide)] at hearly
        have hall (c : ℕ) (hc : c ∈ s.pingables) : s.age now c = s.age now b := by
          have := hle c hc
          omega
        refine FirstLeast.least (hfirst.congr (fun c hc hlt => ?_) fun c hc _ => ?_) ?_
        · have hlt := OrderDual.toDual_lt_toDual.mp hlt
          exact absurd (hall c hc) hlt.ne
        · exact (congrArg (sentFrom n) (hall c hc)).ge
        · rw [hzero, sentFrom, if_pos (Nat.zero_le n)]
          omega
      · rw [if_pos (by omega)] at hearly
        have hn (c : ℕ) (hc : c ∈ s.pingables) : n < s.age now c := by
          have := hlate c hc
          omega
        refine FirstLeast.least (hfirst.congr (fun c hc hlt => ?_) fun c hc _ => ?_) ?_
        · exact sentFrom_lt_sentFrom (OrderDual.toDual_lt_toDual.mp hlt) hb (hn c hc)
        · exact sentFrom_le_sentFrom (hle c hc) hb (hn c hc)
        · rw [sentFrom, if_neg (by omega)]
          omega

theorem choiceFrom_const (hrecent : ∀ c ∈ s.pingables, s.age now c < 2 ^ 31) :
    (∀ n < 2 ^ 32, ∀ n' < 2 ^ 32, s.choiceFrom now n = s.choiceFrom now n') ↔ s.ChoiceFree now := by
  constructor
  · intro h
    refine ⟨fun hnone => idle_of_const hnone h, fun b hbest => ?_⟩
    by_cases hnow : s.sentAt b + maxCurrentWritableDelay = now
    · exact .inl hnow
    · exact .inr (best_of_const hbest hrecent h hnow)
  · intro h n _ n' _
    cases hbest : s.writableBest with
    | none =>
      rw [choiceFrom_none hbest, choiceFrom_none hbest, h.idle hbest, least_nil, least_nil]
    | some b => rw [h.choiceFrom hbest, h.choiceFrom hbest]

/-! ## All of it -/

/-- Moving the clock and all times changes neither the states after `UpdateState` nor what is
pinged. -/
structure ShiftInvariant (s : P2PTransportChannel) (now : Uint32) : Prop where
  states : ∀ k c, ((s.shift k).updateState c (now + k)).statesAt c = (s.updateState c now).statesAt c
  choice : ∀ k, (s.shift k).findNextPingableConnection (now + k) = s.findNextPingableConnection now

theorem exists_reading (now : Uint32) (hn : n < 2 ^ 32) : ∃ k, (now + k).toNat = n := by
  refine ⟨BitVec.ofNat 32 n - now, ?_⟩
  have hnow := now.isLt
  rw [BitVec.toNat_add, BitVec.toNat_sub, BitVec.toNat_ofNat]
  omega

/-- **Where the clock stands does not matter** exactly if every deadline that is tested is just
now. -/
theorem shiftInvariant_iff {now : Uint32} (hrecent : ∀ c conn, s.connectionAt c = some conn → conn.Recent now) :
    s.ShiftInvariant now ↔
      (∀ c conn, s.connectionAt c = some conn →
        conn.ClockFree ((s.portOf c).any (·.isGoogleIce)) now) ∧ s.ChoiceFree now := by
  have hsame (k : Uint32) (c : ℕ) (conn : Connection) (hconn : s.connectionAt c = some conn) :
      (s.updateState c now).statesAt c =
        some (conn.statesFrom ((s.portOf c).any (·.isGoogleIce)) now now.toNat) := by
    have hzero := states_shift hconn now 0
    have hnow : now + 0 = now := BitVec.add_zero now
    rwa [shift_zero, hnow] at hzero
  have hchosen : s.findNextPingableConnection now = s.choiceFrom now now.toNat := by
    have hzero := choice_shift s now 0
    have hnow : now + 0 = now := BitVec.add_zero now
    rwa [shift_zero, hnow] at hzero
  have hages (c : ℕ) (hc : c ∈ s.pingables) : s.age now c < 2 ^ 31 := by
    obtain ⟨conn, hconn⟩ := exists_of_isPingable (List.of_mem_filter hc)
    have hsent : s.sentAt c = conn.lastPingSent := by rw [sentAt, hconn]; rfl
    rw [age, hsent]
    exact (hrecent c conn hconn).lastPingSent
  rw [← choiceFrom_const hages]
  constructor
  · intro h
    refine ⟨fun c conn hconn => ?_, fun n hn n' hn' => ?_⟩
    · refine (Connection.statesFrom_const now.isLt).mp fun n hn => ?_
      obtain ⟨k, rfl⟩ := exists_reading now hn
      have hstates := h.states k c
      rw [states_shift hconn, hsame 0 c conn hconn] at hstates
      exact Option.some.inj hstates
    · obtain ⟨k, rfl⟩ := exists_reading now hn
      obtain ⟨k', rfl⟩ := exists_reading now hn'
      rw [← choice_shift, ← choice_shift, h.choice, h.choice]
  · rintro ⟨hstates, hchoice⟩
    refine ⟨fun k c => ?_, fun k => ?_⟩
    · cases hconn : s.connectionAt c with
      | none =>
        have hshift : (s.shift k).connectionAt c = none := by
          rw [connectionAt_shift, hconn, Option.map_none]
        rw [updateState_none hshift, updateState_none hconn, statesAt, statesAt, hshift, hconn]
      | some conn =>
        rw [states_shift hconn, hsame k c conn hconn,
          (Connection.statesFrom_const now.isLt).mpr (hstates c conn hconn) _ (now + k).isLt]
    · rw [choice_shift, hchosen, hchoice _ (now + k).isLt _ now.isLt]

section Example

def exampleOnly (conn : Connection) : P2PTransportChannel where
  component := 1
  ports := [1]
  connections := [2]
  portAt := fun p => if p = 1 then some { examplePort with iceProtocol := .google } else none
  connectionAt := fun c => if c = 2 then some conn else none
  fresh := 3

theorem recent_exampleOnly (h : conn.Recent now) (c : ℕ)
    (conn' : Connection) (hconn : (exampleOnly conn).connectionAt c = some conn') : conn'.Recent now := by
  simp only [exampleOnly] at hconn
  split at hconn
  · cases hconn
    exact h
  · cases hconn

def exampleLive : Connection :=
  { port := 1, localPriority := 200, remoteCandidate := exampleCandidate, readState := .readable,
    writeState := .writable, lastPingSent := 59000, lastPingReceived := 58000, lastDataReceived := 59900,
    pingsSinceLastResponse := [59000] }

def exampleRunning : P2PTransportChannel :=
  { exampleOnly exampleLive with
    portAt := fun p => if p = 1 then some { examplePort with iceProtocol := .rfc5245 } else none
    bestConnection := some 2 }

theorem shiftInvariant_live : exampleRunning.ShiftInvariant 60000 := by
  have hrecent : exampleLive.Recent 60000 :=
    ⟨by decide, by decide, by decide, List.forall_mem_singleton.mpr (by decide)⟩
  refine (shiftInvariant_iff (s := exampleRunning) (recent_exampleOnly hrecent)).mpr
    ⟨fun c conn hconn => ?_, ?_, fun b hb => ?_⟩
  · simp only [exampleRunning, exampleOnly] at hconn
    split at hconn
    · next heq =>
      obtain rfl := Option.some.inj hconn
      rw [heq]
      exact ⟨fun hgoogle => absurd hgoogle (by decide), by decide, by decide⟩
    · cases hconn
  · exact fun hnone => absurd hnone (by decide)
  · have hbest : exampleRunning.writableBest = some 2 := by decide
    obtain rfl := Option.some.inj (hbest.symm.trans hb)
    exact .inr ⟨⟨[], [], by decide, by decide, by decide⟩, .inr ⟨by decide, by decide⟩⟩

def exampleUnanswered : Connection :=
  { port := 1, localPriority := 200, remoteCandidate := exampleCandidate, readState := .readable,
    lastPingSent := 0xFFFFFFE0, lastPingReceived := 0xFFFFFFE0, lastDataReceived := 0xFFFFFFE8,
    pingsSinceLastResponse := [0xFFFFFFE0] }

/-- **Just before the clock wraps a connection times out after 16 milliseconds**, later it would
not. -/
theorem times_out_early :
    let s := exampleOnly exampleUnanswered
    (∀ c conn, s.connectionAt c = some conn → conn.Recent 0xFFFFFFF0) ∧
      (s.updateState 2 0xFFFFFFF0).statesAt 2 = some (.timeout, .timeout) ∧
      ((s.shift 32).updateState 2 (0xFFFFFFF0 + 32)).statesAt 2 = some (.readable, .init) ∧
      ¬ s.ShiftInvariant 0xFFFFFFF0 := by
  have hrecent : exampleUnanswered.Recent 0xFFFFFFF0 :=
    ⟨by decide, by decide, by decide, List.forall_mem_singleton.mpr (by decide)⟩
  have hbefore : ((exampleOnly exampleUnanswered).updateState 2 0xFFFFFFF0).statesAt 2 =
      some (.timeout, .timeout) := by decide
  have hafter : (((exampleOnly exampleUnanswered).shift 32).updateState 2 (0xFFFFFFF0 + 32)).statesAt 2 =
      some (.readable, .init) := by decide
  refine ⟨recent_exampleOnly hrecent, hbefore, hafter, fun h => ?_⟩
  have hstates := h.states 32 2
  rw [hbefore, hafter] at hstates
  cases hstates

end Example

end P2PTransportChannel

end Libjingle.P2P
