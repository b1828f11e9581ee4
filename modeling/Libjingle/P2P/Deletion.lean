import Libjingle.P2P.Sort
import Libjingle.P2P.Waning

/-!
# Connections that delete themselves (`p2p/base/port.cc`)

When both states have timed out, `CheckTimeout` posts `MSG_DELETE`; the connection is deleted when the
message is dispatched, whatever its states are by then.

Main results: **`PostedOnly.call`**, **`deletions_sound`**.
-/

variable {conn : Connection}

namespace Libjingle.P2P.P2PTransportChannel

open Lib

variable {s : P2PTransportChannel} {c d : ℕ} {q : Connection → Prop}

/-! ## Calls -/

/-- What happens to a connection: packets, pings, calls of the channel, and `MSG_DELETE`. -/
inductive Call where
  | event (c : ℕ) (now : Uint32) (event : ConnectionEvent)
  | receivedPing (c : ℕ) (now : Uint32)
  | ping (c : ℕ) (now : Uint32)
  | updateState (c : ℕ) (now : Uint32)
  | prune (c : ℕ)
  | deletion (c : ℕ) (now : Uint32)

def call (s : P2PTransportChannel) : Call → P2PTransportChannel
  | .event c now event => s.onConnectionEvent c now event
  | .receivedPing c now => s.receivedPing c now
  | .ping c now => s.pingOut c now
  | .updateState c now => s.updateState c now
  | .prune c => s.prune c
  | .deletion c now => if .delete c ∈ s.messages then s.onMessage (.delete c) now else s

def deletedBy (s : P2PTransportChannel) : Call → Option (ℕ × Option Connection)
  | .deletion c _ => if .delete c ∈ s.messages then some (c, s.connectionAt c) else none
  | _ => none

def deletions : P2PTransportChannel → List Call → List (ℕ × Option Connection)
  | _, [] => []
  | s, k :: calls => (s.deletedBy k).toList ++ deletions (s.call k) calls

/-- The connections that get a ping or a response. -/
def revives (s : P2PTransportChannel) : Call → List ℕ
  | .receivedPing c _ => [c]
  | .event c _ (.request _) =>
    c :: ((s.connectionAt c).bind fun conn =>
      (s.portAt conn.port).bind (·.getConnection conn.remoteCandidate.address)).toList
  | .event c _ (.response _ _) => [c]
  | _ => []

def LeavesDeleted (s : P2PTransportChannel) (k : Call) : Prop :=
  ∀ c ∈ s.revives k, .delete c ∉ s.messages

instance (s : P2PTransportChannel) (k : Call) : Decidable (s.LeavesDeleted k) :=
  inferInstanceAs (Decidable (∀ c ∈ s.revives k, .delete c ∉ s.messages))

/-! ## Posted deletions -/

/-- A deletion is posted only where `q` holds. -/
def PostedOnly (q : Connection → Prop) (s : P2PTransportChannel) : Prop :=
  ∀ c, .delete c ∈ s.messages → ∃ conn, s.connectionAt c = some conn ∧ q conn

/-- `q` holds of a connection that timed out, until something brings it back. -/
structure Fatal (q : Connection → Prop) : Prop where
  timedOut : ∀ conn, conn.isTimedOut = true → q conn
  keeps : ∀ {conn conn'}, (conn.isTimedOut = true → conn'.isTimedOut = true) → q conn → q conn'

theorem fatal_true : Fatal fun _ => True := ⟨fun _ _ => trivial, fun _ _ => trivial⟩

theorem fatal_isTimedOut : Fatal fun conn => conn.isTimedOut = true := ⟨fun _ h => h, fun h => h⟩

theorem delete_mem_requestSort : .delete d ∈ s.requestSort.messages ↔ .delete d ∈ s.messages := by
  unfold requestSort
  split
  · simp [post]
  · rfl

theorem delete_mem_onConnectionStateChange :
    .delete d ∈ (s.onConnectionStateChange c).messages ↔ .delete d ∈ s.messages := by
  unfold onConnectionStateChange
  rw [delete_mem_requestSort]
  split <;> rfl

theorem delete_mem_signalled :
    .delete d ∈ ((s.onConnectionStateChange c).checkTimeout c).messages ↔
      .delete d ∈ s.messages ∨ d = c ∧ s.test c (·.isTimedOut) = true := by
  have htest : (s.onConnectionStateChange c).test c (·.isTimedOut) = s.test c (·.isTimedOut) := by
    rw [test, test, (signals_onConnectionStateChange s c).connectionAt]
  rw [checkTimeout, htest]
  split
  · rename_i h
    rw [post, List.mem_append, delete_mem_onConnectionStateChange, List.mem_singleton]
    simp [h]
  · rename_i h
    simp [delete_mem_onConnectionStateChange, h]

theorem connectionAt_setConnection (c : ℕ) (conn : Connection) (s : P2PTransportChannel) (d : ℕ) :
    (s.setConnection c conn).connectionAt d = if d = c then some conn else s.connectionAt d := by
  split
  · rename_i h
    rw [h, connectionAt_setConnection_self]
  · rename_i h
    exact connectionAt_setConnection_ne h s conn

namespace PostedOnly

theorem mono {s' : P2PTransportChannel} (h : PostedOnly q s)
    (hmessages : ∀ c, .delete c ∈ s'.messages → .delete c ∈ s.messages)
    (hconnectionAt : s'.connectionAt = s.connectionAt) : PostedOnly q s' := by
  intro c hc
  rw [hconnectionAt]
  exact h c (hmessages c hc)

theorem setConnection (h : PostedOnly q s) {conn' : Connection} (hconn : s.connectionAt c = some conn)
    (hkeep : .delete c ∈ s.messages → q conn → q conn') : PostedOnly q (s.setConnection c conn') := by
  intro d hd
  obtain ⟨conn₀, hconn₀, hq⟩ := h d hd
  rw [connectionAt_setConnection]
  split
  · rename_i heq
    subst heq
    obtain rfl := Option.some.inj (hconn.symm.trans hconn₀)
    exact ⟨conn', rfl, hkeep hd hq⟩
  · exact ⟨conn₀, hconn₀, hq⟩

theorem signalled (hq : Fatal q) (h : PostedOnly q s) (c : ℕ) :
    PostedOnly q ((s.onConnectionStateChange c).checkTimeout c) := by
  intro d hd
  rw [(signals_signalled s c).connectionAt]
  rcases delete_mem_signalled.mp hd with hd | ⟨rfl, htest⟩
  · exact h d hd
  · rw [test, Option.any_eq_true] at htest
    obtain ⟨conn, hconn, hdead⟩ := htest
    exact ⟨conn, hconn, hq.timedOut conn hdead⟩

theorem modifyConnection (h : PostedOnly q s) {f : Connection → Connection}
    (hkeep : ∀ conn, .delete c ∈ s.messages → q conn → q (f conn)) :
    PostedOnly q (s.modifyConnection c f) := by
  unfold P2PTransportChannel.modifyConnection
  cases hconn : s.connectionAt c with
  | none => exact h
  | some conn => exact h.setConnection hconn (hkeep conn)

theorem setReadState (hq : Fatal q) (h : PostedOnly q s) {value : ReadState}
    (hkeep : ∀ conn, s.connectionAt c = some conn → .delete c ∈ s.messages → q conn →
      q { conn with readState := value }) : PostedOnly q (s.setReadState c value) := by
  unfold P2PTransportChannel.setReadState
  cases hconn : s.connectionAt c with
  | none => exact h
  | some conn =>
    have hset := h.setConnection hconn (hkeep conn hconn)
    dsimp only
    split
    · exact hset.signalled hq c
    · exact hset

theorem setWriteState (hq : Fatal q) (h : PostedOnly q s) {value : WriteState}
    (hkeep : ∀ conn, s.connectionAt c = some conn → .delete c ∈ s.messages → q conn →
      q { conn with writeState := value }) : PostedOnly q (s.setWriteState c value) := by
  unfold P2PTransportChannel.setWriteState
  cases hconn : s.connectionAt c with
  | none => exact h
  | some conn =>
    have hset := h.setConnection hconn (hkeep conn hconn)
    dsimp only
    split
    · exact hset.signalled hq c
    · exact hset

end PostedOnly

/-! ## The calls -/

theorem messages_modifyConnection (s : P2PTransportChannel) (c : ℕ) (f : Connection → Connection) :
    (s.modifyConnection c f).messages = s.messages := by
  unfold modifyConnection
  cases s.connectionAt c <;> rfl

theorem connectionAt_modifyConnection (s : P2PTransportChannel) (c : ℕ) (f : Connection → Connection) :
    (s.modifyConnection c f).connectionAt c = (s.connectionAt c).map f := by
  unfold modifyConnection
  cases h : s.connectionAt c with
  | none => exact h
  | some conn => exact connectionAt_setConnection_self s c (f conn)

theorem delete_mem_setReadState {value : ReadState} (h : value = .readable)
    (hd : .delete d ∈ (s.setReadState c value).messages) : .delete d ∈ s.messages := by
  unfold setReadState at hd
  cases hconn : s.connectionAt c with
  | none => rwa [hconn] at hd
  | some conn =>
    rw [hconn] at hd
    dsimp only at hd
    split at hd
    · rcases delete_mem_signalled.mp hd with hd | ⟨rfl, htest⟩
      · exact hd
      · rw [test, connectionAt_setConnection_self, h] at htest
        simp [Connection.isTimedOut] at htest
    · exact hd

theorem delete_mem_setWriteState {value : WriteState} (h : value ≠ .timeout)
    (hd : .delete d ∈ (s.setWriteState c value).messages) : .delete d ∈ s.messages := by
  unfold setWriteState at hd
  cases hconn : s.connectionAt c with
  | none => rwa [hconn] at hd
  | some conn =>
    rw [hconn] at hd
    dsimp only at hd
    split at hd
    · rcases delete_mem_signalled.mp hd with hd | ⟨rfl, htest⟩
      · exact hd
      · rw [test, connectionAt_setConnection_self] at htest
        simp [Connection.isTimedOut, h] at htest
    · exact hd

theorem delete_mem_receivedPing {now : Uint32} (hd : .delete d ∈ (s.receivedPing c now).messages) :
    .delete d ∈ s.messages := by
  have hmodified := delete_mem_setReadState rfl hd
  rwa [messages_modifyConnection] at hmodified

theorem isTimedOut_iff : conn.isTimedOut = true ↔
    (conn.readState = .timeout ∨ conn.readState = .init) ∧ conn.writeState = .timeout := by
  simp [Connection.isTimedOut]

namespace PostedOnly

theorem modifyOther (hq : Fatal q) (h : PostedOnly q s) {f : Connection → Connection}
    (hf : ∀ conn, (f conn).isTimedOut = conn.isTimedOut) : PostedOnly q (s.modifyConnection c f) :=
  h.modifyConnection fun conn _ => hq.keeps (by rw [hf]; exact id)

theorem receivedPing (hq : Fatal q) (h : PostedOnly q s) (now : Uint32)
    (hkeep : .delete c ∈ s.messages → ∀ conn, s.connectionAt c = some conn → conn.isTimedOut = true →
      ∀ conn', q conn') : PostedOnly q (s.receivedPing c now) := by
  refine (h.modifyOther hq fun conn => by rfl).setReadState hq fun conn hconn hposted hconn' => ?_
  rw [messages_modifyConnection] at hposted
  rw [connectionAt_modifyConnection, Option.map_eq_some_iff] at hconn
  obtain ⟨conn₀, hconn₀, rfl⟩ := hconn
  by_cases hdead : conn₀.isTimedOut = true
  · exact hkeep hposted conn₀ hconn₀ hdead _
  · have halive : ¬ ({ conn₀ with lastPingReceived := now } : Connection).isTimedOut = true := hdead
    exact hq.keeps (fun hnot => absurd hnot halive) hconn'

theorem restartChecks (hq : Fatal q) (h : PostedOnly q s)
    (hkeep : .delete c ∈ s.messages → ∀ conn, s.connectionAt c = some conn → conn.isTimedOut = true →
      ∀ conn', q conn') : PostedOnly q (s.restartChecks c) := by
  unfold P2PTransportChannel.restartChecks
  split
  · refine h.setWriteState hq fun conn hconn hposted hq' => ?_
    by_cases hdead : conn.isTimedOut = true
    · exact hkeep hposted conn hconn hdead _
    · exact hq.keeps (fun hnot => absurd hnot hdead) hq'
  · exact h

theorem timesOutRead (hq : Fatal q) (h : PostedOnly q s) (c : ℕ) : PostedOnly q (s.setReadState c .timeout) :=
  h.setReadState hq fun _ _ _ =>
    hq.keeps fun hdead => isTimedOut_iff.mpr ⟨.inl rfl, (isTimedOut_iff.mp hdead).2⟩

theorem timesOutWrite (hq : Fatal q) (h : PostedOnly q s) (c : ℕ) : PostedOnly q (s.setWriteState c .timeout) :=
  h.setWriteState hq fun _ _ _ =>
    hq.keeps fun hdead => isTimedOut_iff.mpr ⟨(isTimedOut_iff.mp hdead).1, rfl⟩

theorem prune (hq : Fatal q) (h : PostedOnly q s) (c : ℕ) : PostedOnly q (s.prune c) := by
  unfold P2PTransportChannel.prune
  split
  · exact (h.modifyOther hq fun conn => by rfl).timesOutWrite hq c
  · exact h

theorem updateState (hq : Fatal q) (h : PostedOnly q s) (c : ℕ) (now : Uint32) :
    PostedOnly q (s.updateState c now) := by
  unfold P2PTransportChannel.updateState
  dsimp only
  have hread : PostedOnly q (if s.test c (·.readTimesOut ((s.portOf c).any (·.isGoogleIce)) now) then
      s.setReadState c .timeout else s) := by
    split
    · exact h.timesOutRead hq c
    · exact h
  generalize (if s.test c (·.readTimesOut ((s.portOf c).any (·.isGoogleIce)) now) then
    s.setReadState c .timeout else s) = s₁ at *
  have hunreliable : PostedOnly q (if s₁.test c (·.becomesUnreliable now) then
      s₁.setWriteState c .unreliable else s₁) := by
    split
    · rename_i htest
      refine hread.setWriteState hq fun conn hconn _ => hq.keeps fun hdead => ?_
      -- only a writable connection becomes unreliable
      rw [test, hconn, Option.any_some] at htest
      simp [Connection.becomesUnreliable, (isTimedOut_iff.mp hdead).2] at htest
    · exact hread
  generalize (if s₁.test c (·.becomesUnreliable now) then s₁.setWriteState c .unreliable else s₁) = s₂ at *
  split
  · exact hunreliable.timesOutWrite hq c
  · exact hunreliable

theorem onUseCandidate (h : PostedOnly q s) (c : ℕ) : PostedOnly q (s.onUseCandidate c) := by
  unfold P2PTransportChannel.onUseCandidate
  split
  · split
    · refine h.mono (fun d hd => ?_) (signals_requestSort _).connectionAt
      have hposted := delete_mem_requestSort.mp hd
      exact hposted
    · exact h
  · exact h.mono (fun _ hd => hd) rfl

theorem onConnectionStateChange (h : PostedOnly q s) (c : ℕ) : PostedOnly q (s.onConnectionStateChange c) :=
  h.mono (fun _ hd => delete_mem_onConnectionStateChange.mp hd)
    (signals_onConnectionStateChange s c).connectionAt

end PostedOnly

/-! ### `MSG_DELETE` -/

theorem messages_leavePort (s : P2PTransportChannel) (conn : Connection) :
    (s.leavePort conn).messages = s.messages := by
  unfold leavePort
  split <;> rfl

theorem connectionAt_leavePort (s : P2PTransportChannel) (conn : Connection) :
    (s.leavePort conn).connectionAt = s.connectionAt := by
  unfold leavePort
  split <;> rfl

theorem delete_mem_onConnectionDestroyed :
    .delete d ∈ (s.onConnectionDestroyed c).messages ↔ .delete d ∈ s.messages := by
  unfold onConnectionDestroyed
  dsimp only
  split
  · rw [delete_mem_requestSort]
    rfl
  · rfl

theorem connectionAt_onConnectionDestroyed (s : P2PTransportChannel) (c : ℕ) :
    (s.onConnectionDestroyed c).connectionAt = s.connectionAt := by
  unfold onConnectionDestroyed
  dsimp only
  split
  · exact (signals_requestSort _).connectionAt
  · rfl

theorem connectionAt_deletion (s : P2PTransportChannel) (c : ℕ) (now : Uint32) (d : ℕ) :
    (s.onMessage (.delete c) now).connectionAt d = if d = c then none else s.connectionAt d := by
  unfold onMessage deleteConnection
  dsimp only
  cases hconn : s.connectionAt c with
  | none =>
    dsimp only
    split
    · rename_i h
      rw [h, hconn]
    · rfl
  | some conn =>
    dsimp only
    rw [Function.update_apply, connectionAt_onConnectionDestroyed, connectionAt_leavePort]

theorem delete_mem_deletion {now : Uint32} (hconn : s.connectionAt c = some conn)
    (hd : .delete d ∈ (s.onMessage (.delete c) now).messages) : .delete d ∈ s.messages ∧ d ≠ c := by
  unfold onMessage deleteConnection at hd
  dsimp only at hd
  rw [hconn] at hd
  dsimp only at hd
  rw [List.mem_filter, delete_mem_onConnectionDestroyed, messages_leavePort] at hd
  refine ⟨List.mem_of_mem_erase hd.1, fun heq => ?_⟩
  subst heq
  simp at hd

namespace PostedOnly

theorem onBindingRequest (hq : Fatal q) (h : PostedOnly q s) (c : ℕ) (useCandidate : Bool) (now : Uint32)
    (hrevives : ∀ d ∈ s.revives (.event c now (.request useCandidate)), .delete d ∈ s.messages →
      ∀ conn, q conn) : PostedOnly q (s.onBindingRequest c useCandidate now) := by
  unfold P2PTransportChannel.onBindingRequest
  cases hconn : s.connectionAt c with
  | none => exact h
  | some conn =>
    dsimp only
    simp only [revives, hconn, Option.bind_some] at hrevives
    have hanswer : PostedOnly q (s.answer conn.port conn.remoteCandidate.address .success) :=
      h.mono (fun _ hd => hd) rfl
    have hresponse : PostedOnly q (s.sendBindingResponse conn.port conn.remoteCandidate.address now) ∧
        ∀ d, .delete d ∈ (s.sendBindingResponse conn.port conn.remoteCandidate.address now).messages →
          .delete d ∈ s.messages := by
      unfold sendBindingResponse
      dsimp only
      have hport : (s.answer conn.port conn.remoteCandidate.address .success).portAt = s.portAt := rfl
      rw [hport]
      cases haddress : (s.portAt conn.port).bind (·.getConnection conn.remoteCandidate.address) with
      | none =>
        refine ⟨?_, fun d hd => ?_⟩
        · exact hanswer
        · exact hd
      | some d =>
        rw [haddress] at hrevives
        have hping := hanswer.receivedPing (c := d) hq now fun hposted _ _ _ =>
          hrevives d (by simp) hposted
        exact ⟨hping, fun d' hd' => @delete_mem_receivedPing
          (s.answer conn.port conn.remoteCandidate.address .success) d d' now hd'⟩
    have hrestart := hresponse.1.restartChecks (c := c) hq fun hposted _ _ _ =>
      hrevives c List.mem_cons_self (hresponse.2 c hposted)
    split
    · exact hrestart.onUseCandidate c
    · exact hrestart

theorem onRequestResponse (hq : Fatal q) (h : PostedOnly q s) (elapsed : Uint32) (prflx : Option Uint32)
    (now : Uint32) (hrevives : .delete c ∈ s.messages → ∀ conn, q conn) :
    PostedOnly q (s.onRequestResponse c elapsed prflx now) := by
  have hwritable : PostedOnly q (s.setWriteState c .writable) :=
    h.setWriteState hq fun _ _ hposted _ => hrevives hposted _
  have hstill (hposted : .delete c ∈ (s.setWriteState c .writable).messages) : ∀ conn, q conn :=
    hrevives (delete_mem_setWriteState (by decide) hposted)
  unfold P2PTransportChannel.onRequestResponse
  dsimp only
  have hsucceeded : PostedOnly q ((s.setWriteState c .writable).modifyConnection c fun conn =>
      { conn with state := .succeeded }) := hwritable.modifyOther hq fun conn => by rfl
  have hreadable : PostedOnly q (((s.setWriteState c .writable).modifyConnection c fun conn =>
      { conn with state := .succeeded }).becomeReadable c now) := by
    unfold becomeReadable
    split
    · refine hsucceeded.receivedPing hq now fun hposted _ _ _ => ?_
      rw [messages_modifyConnection] at hposted
      exact hstill hposted
    · exact hsucceeded
  have hanswered := hreadable.modifyOther (c := c) hq (f := fun conn => { conn with
    pingsSinceLastResponse := [], lastPingResponseReceived := now,
    rtt := (3 * conn.rtt + elapsed) / 4 }) fun conn => by rfl
  split
  · unfold maybeAddPrflxCandidate
    cases prflx with
    | none => exact hanswered
    | some priority => exact (hanswered.modifyOther hq fun conn => by rfl).onConnectionStateChange c
  · exact hanswered

theorem onRequestErrorResponse (hq : Fatal q) (h : PostedOnly q s) (c code : ℕ) :
    PostedOnly q (s.onRequestErrorResponse c code) := by
  unfold P2PTransportChannel.onRequestErrorResponse
  split
  · exact h
  · exact (h.modifyOther hq fun conn => by rfl).timesOutWrite hq c

theorem not_isTimedOut_of_readable
    (h : s.test c (fun conn => conn.readState == .readable) = true) (hconn : s.connectionAt c = some conn) :
    ¬ conn.isTimedOut = true := by
  rw [test, hconn, Option.any_some, beq_iff_eq] at h
  simp [Connection.isTimedOut, h]

theorem onIndication (hq : Fatal q) (h : PostedOnly q s) (c : ℕ) (now : Uint32) :
    PostedOnly q (s.onIndication c now) := by
  unfold P2PTransportChannel.onIndication
  split
  · rename_i htest
    rw [Bool.and_eq_true] at htest
    exact h.receivedPing hq now fun _ conn hconn hdead =>
      absurd hdead (not_isTimedOut_of_readable htest.2 hconn)
  · exact h

theorem onData (hq : Fatal q) (h : PostedOnly q s) (c : ℕ) (now : Uint32) : PostedOnly q (s.onData c now) := by
  unfold P2PTransportChannel.onData
  split
  · rename_i htest
    refine (h.modifyOther hq fun conn => by rfl).restartChecks hq fun _ conn hconn hdead => ?_
    rw [connectionAt_modifyConnection, Option.map_eq_some_iff] at hconn
    obtain ⟨conn₀, hconn₀, rfl⟩ := hconn
    have hdead₀ : conn₀.isTimedOut = true := hdead
    exact absurd hdead₀ (not_isTimedOut_of_readable htest hconn₀)
  · exact h

theorem deletion (h : PostedOnly q s) (c : ℕ) (now : Uint32) : PostedOnly q (s.call (.deletion c now)) := by
  unfold P2PTransportChannel.call
  dsimp only
  split
  · rename_i hdeleted
    intro d hd
    obtain ⟨conn, hconn, -⟩ := h c hdeleted
    obtain ⟨hposted, hne⟩ := delete_mem_deletion hconn hd
    rw [connectionAt_deletion, if_neg hne]
    exact h d hposted
  · exact h

end PostedOnly

/-- **A call posts the deletion of fatal connections only**. -/
theorem PostedOnly.call (hq : Fatal q) (h : PostedOnly q s) (k : Call)
    (hrevives : ∀ c ∈ s.revives k, .delete c ∈ s.messages → ∀ conn, q conn) :
    PostedOnly q (s.call k) := by
  cases k with
  | receivedPing c now =>
    exact h.receivedPing hq now fun hposted _ _ _ => hrevives c List.mem_cons_self hposted
  | ping c now => exact h.modifyOther hq fun conn => by rfl
  | updateState c now => exact h.updateState hq c now
  | prune c => exact h.prune hq c
  | deletion c now => exact h.deletion c now
  | event c now event =>
    cases event with
    | request useCandidate => exact h.onBindingRequest hq c useCandidate now hrevives
    | response elapsed prflx =>
      exact h.onRequestResponse hq elapsed prflx now fun hposted => hrevives c List.mem_cons_self hposted
    | errorResponse code => exact h.onRequestErrorResponse hq c code
    | indication => exact h.onIndication hq c now
    | data => exact h.onData hq c now
    | destroy => exact (h.timesOutRead hq c).timesOutWrite hq c
    | connected value => exact h.modifyOther hq fun conn => by rfl

/-! ## Runs -/

theorem connectionAt_call {k : Call} (h : s.connectionAt c = none) : (s.call k).connectionAt c = none := by
  have hstirs {s' : P2PTransportChannel} (hs' : Stirs s s') : s'.connectionAt c = none := by
    have hlive := hs'.isSome_connectionAt c
    rw [h] at hlive
    exact Option.not_isSome_iff_eq_none.mp (by rw [hlive]; exact Bool.false_ne_true)
  cases k with
  | receivedPing d now => exact hstirs (stirs_receivedPing s d now)
  | ping d now => exact hstirs (stirs_modifyConnection (fun _ => by rfl) s d)
  | updateState d now => exact hstirs (stirs_updateState s d now)
  | prune d => exact hstirs (stirs_prune s d)
  | deletion d now =>
    unfold call
    dsimp only
    split
    · rw [connectionAt_deletion, h, ite_self]
    · exact h
  | event d now event =>
    cases event with
    | request useCandidate =>
      show (s.onBindingRequest d useCandidate now).connectionAt c = none
      unfold onBindingRequest
      cases hconn : s.connectionAt d with
      | none => exact h
      | some conn =>
        dsimp only
        have hrestart := hstirs ((stirring_stirs.sendBindingResponse s conn.port
          conn.remoteCandidate.address now).trans (stirs_restartChecks _ d))
        split
        · unfold onUseCandidate
          split
          · split
            · rw [(signals_requestSort _).connectionAt]
              exact hrestart
            · exact hrestart
          · exact hrestart
        · exact hrestart
    | response elapsed prflx => exact hstirs (stirs_onRequestResponse s d elapsed prflx now)
    | errorResponse code => exact hstirs (stirring_stirs.onRequestErrorResponse s d code)
    | indication => exact hstirs (stirring_stirs.onIndication s d now)
    | data => exact hstirs (stirring_stirs.onData s d now)
    | destroy => exact hstirs ((stirs_setReadState s d _).trans (stirs_setWriteState _ d _))
    | connected value => exact hstirs (stirs_modifyConnection (fun _ => by rfl) s d)

theorem postedOnly_call (h : PostedOnly (fun _ => True) s) (k : Call) : PostedOnly (fun _ => True) (s.call k) :=
  h.call fatal_true k fun _ _ _ _ => trivial

theorem ne_none_of_deletions {e : ℕ × Option Connection} {calls : List Call}
    (h : PostedOnly (fun _ => True) s) (he : e ∈ s.deletions calls) : s.connectionAt e.1 ≠ none := by
  induction calls generalizing s with
  | nil => cases he
  | cons k calls ih =>
    rcases List.mem_append.mp he with he | he
    · rw [Option.mem_toList] at he
      cases k with
      | deletion c now =>
        unfold deletedBy at he
        dsimp only at he
        split at he
        · rename_i hposted
          obtain ⟨conn, hconn, -⟩ := h c hposted
          cases he
          rw [hconn]
          exact Option.some_ne_none conn
        · cases he
      | _ => cases he
    · exact fun hnone => ih (postedOnly_call h k) he (connectionAt_call hnone)

theorem connectionAt_of_deletedBy {e : ℕ × Option Connection} {k : Call} (he : s.deletedBy k = some e) :
    (s.call k).connectionAt e.1 = none ∧ .delete e.1 ∈ s.messages ∧ e.2 = s.connectionAt e.1 := by
  cases k with
  | deletion c now =>
    unfold deletedBy at he
    dsimp only at he
    split at he
    · rename_i hposted
      cases he
      refine ⟨?_, hposted, rfl⟩
      unfold call
      dsimp only
      rw [if_pos hposted, connectionAt_deletion, if_pos rfl]
    · cases he
  | _ => cases he

theorem nodup_deletions (h : PostedOnly (fun _ => True) s) (calls : List Call) :
    ((s.deletions calls).map Prod.fst).Nodup := by
  induction calls generalizing s with
  | nil => exact List.nodup_nil
  | cons k calls ih =>
    have hrest := ih (postedOnly_call h k)
    unfold deletions
    cases he : s.deletedBy k with
    | none => exact hrest
    | some e =>
      rw [Option.toList_some, List.singleton_append, List.map_cons, List.nodup_cons]
      refine ⟨fun hmem => ?_, hrest⟩
      obtain ⟨e', he', heq⟩ := List.mem_map.mp hmem
      exact ne_none_of_deletions (postedOnly_call h k) he' (heq ▸ (connectionAt_of_deletedBy he).1)

/-- Only what has timed out is deleted, once. -/
def SoundDeletions (s : P2PTransportChannel) (calls : List Call) : Prop :=
  (∀ e ∈ s.deletions calls, ∃ conn, e.2 = some conn ∧ conn.isTimedOut = true) ∧
    ((s.deletions calls).map Prod.fst).Nodup

/-- **Only dead connections are deleted** in a run that brings none back while its deletion is
posted. -/
theorem deletions_sound (hs : ∀ c, .delete c ∉ s.messages) {calls : List Call}
    (h : Guarded call LeavesDeleted s calls) : s.SoundDeletions calls := by
  have hnone (q : Connection → Prop) : PostedOnly q s := fun c hc => absurd hc (hs c)
  refine ⟨?_, nodup_deletions (hnone _) calls⟩
  have hdead := hnone fun conn => conn.isTimedOut = true
  clear hnone hs
  induction calls generalizing s with
  | nil => exact fun e he => by cases he
  | cons k calls ih =>
    intro e he
    rcases List.mem_append.mp he with he | he
    · rw [Option.mem_toList] at he
      obtain ⟨-, hposted, hconn⟩ := connectionAt_of_deletedBy he
      rw [hconn]
      exact hdead e.1 hposted
    · refine ih h.2 (hdead.call fatal_isTimedOut k fun c hc hposted => ?_) e he
      exact absurd hposted (h.1 c hc)

section Example

def exampleOne : P2PTransportChannel where
  component := 1
  ports := [1]
  connections := [2]
  portAt := fun p =>
    if p = 1 then
      some { examplePort with iceProtocol := .google, connections := [(exampleCandidate.address, 2)] }
    else none
  connectionAt := fun c =>
    if c = 2 then some { port := 1, localPriority := 200, remoteCandidate := exampleCandidate } else none
  fresh := 3

def exampleKilled : List Call := [.ping 2 30, .event 2 40 (.errorResponse 400)]

theorem deletions_sound_killed : exampleOne.SoundDeletions (exampleKilled ++ [.deletion 2 50]) := by
  have hnone : ∀ c, .delete c ∉ exampleOne.messages := fun _ => List.not_mem_nil
  exact deletions_sound hnone (by decide)

/-- **A connection that is back is deleted**: a request arrives while the deletion is posted. -/
theorem deletes_alive :
    (∀ c, .delete c ∉ exampleOne.messages) ∧
      ¬ exampleOne.SoundDeletions (exampleKilled ++ [.event 2 50 (.request false), .deletion 2 60]) := by
  have halive : ((exampleOne.deletions (exampleKilled ++ [.event 2 50 (.request false),
      .deletion 2 60])).any fun e => e.2.any fun conn => !conn.isTimedOut) = true := by
    decide
  refine ⟨fun _ => List.not_mem_nil, fun h => ?_⟩
  obtain ⟨e, he, hconn⟩ := List.any_eq_true.mp halive
  obtain ⟨conn, heq, hdead⟩ := h.1 e he
  rw [heq, Option.any_some, hdead] at hconn
  cases hconn

end Example

end Libjingle.P2P.P2PTransportChannel
