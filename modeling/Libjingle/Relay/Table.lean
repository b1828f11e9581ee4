import Libjingle.Lib.Index
import Libjingle.Relay.Server

/-!
# The connections of the relay server

Main results: **`connections_bijective`**, **`peer_of_two_clients`**.
-/

variable {addr : SocketAddress} {b : RelayServerBinding} {socket : SocketId} {bytes data : List Uint8}
  {request msg : StunMessage} {random : ℕ} {f : RelayServerBinding → RelayServerBinding} {c : RelayConnectionId}
  {v : RelayBindingId × SocketAddressPair}

namespace Libjingle

open Lib StunMessage

def RelayServerBinding.connections (b : RelayServerBinding) : List RelayConnectionId :=
  b.internalConnections ++ b.externalConnections

theorem RelayServerBinding.connections_addInternal (b : RelayServerBinding) (c : RelayConnectionId) :
    ({ b with internalConnections := b.internalConnections ++ [c] } :
      RelayServerBinding).connections.Perm (c :: b.connections) :=
  (List.perm_append_singleton _ _).append_right _

theorem RelayServerBinding.connections_addExternal (b : RelayServerBinding) (c : RelayConnectionId) :
    ({ b with externalConnections := b.externalConnections ++ [c] } :
      RelayServerBinding).connections.Perm (c :: b.connections) := by
  unfold RelayServerBinding.connections
  rw [← List.append_assoc]
  exact List.perm_append_singleton _ _

/-- The maps of a server and what hangs on them. -/
structure RelayTable where
  connections : Tree SocketAddressPair RelayConnectionId
  bindings : List Uint8 → Option RelayBindingId
  address : RelayConnectionId → Option (RelayBindingId × SocketAddressPair)
  members : RelayBindingId → Option (List Uint8 × List RelayConnectionId)
  nextBinding : RelayBindingId
  nextConnection : RelayConnectionId

namespace RelayTable

variable {t : RelayTable} {c d : RelayConnectionId} {i j : RelayBindingId} {ap : SocketAddressPair}
  {username : List Uint8} {l l' : List RelayConnectionId}

def key (t : RelayTable) (c : RelayConnectionId) : Option SocketAddressPair := (t.address c).map Prod.snd

theorem ranked : Tree.Ranked SocketAddressPair.less SocketAddressPair.rank fun _ => True :=
  fun a b _ _ => SocketAddressPair.less_iff a b

def Owns (t : RelayTable) (i : RelayBindingId) (c : RelayConnectionId) : Prop :=
  ∃ username l, t.members i = some (username, l) ∧ c ∈ l

/-- The map is an index of the connections, and each is in the list of its binding. -/
structure Kept (t : RelayTable) : Prop where
  indexed : Tree.Indexed SocketAddressPair.rank (fun _ => True) t.connections t.key
  owned : ∀ c i ap, t.address c = some (i, ap) → t.Owns i c
  member : ∀ i username l, t.members i = some (username, l) →
    l.Nodup ∧ ∀ c ∈ l, ∃ ap, t.address c = some (i, ap)
  named : ∀ username i, t.bindings username = some i ↔ ∃ l, t.members i = some (username, l)
  freshConnection : ∀ c, t.nextConnection ≤ c → t.address c = none
  freshBinding : ∀ i, t.nextBinding ≤ i → t.members i = none

theorem Kept.ne_next (h : Kept t) (hc : t.address c = some v) : c ≠ t.nextConnection := by
  rintro rfl
  rw [h.freshConnection _ (Nat.le_refl _)] at hc
  cases hc

/-! ## A new binding, a new connection, and the end of a binding -/

/-- A new binding, without connections. -/
def enroll (t : RelayTable) (username : List Uint8) : RelayTable :=
  { t with
    bindings := Function.update t.bindings username (some t.nextBinding)
    members := Function.update t.members t.nextBinding (some (username, []))
    nextBinding := t.nextBinding + 1 }

/-- A new connection of a binding, which then has those in `l`. -/
def add (t : RelayTable) (i : RelayBindingId) (ap : SocketAddressPair) (username : List Uint8)
    (l : List RelayConnectionId) : RelayTable :=
  { t with
    connections := t.connections.set SocketAddressPair.less ap t.nextConnection
    address := Function.update t.address t.nextConnection (some (i, ap))
    members := Function.update t.members i (some (username, l))
    nextConnection := t.nextConnection + 1 }

theorem enroll_members : (t.enroll username).members =
    Function.update t.members t.nextBinding (some (username, [])) := rfl

theorem enroll_bindings : (t.enroll username).bindings =
    Function.update t.bindings username (some t.nextBinding) := rfl

theorem add_members_self : (t.add i ap username l).members i = some (username, l) :=
  Function.update_self ..

theorem add_members_of_ne (h : j ≠ i) : (t.add i ap username l).members j = t.members j :=
  Function.update_of_ne h ..

theorem add_address_self : (t.add i ap username l).address t.nextConnection = some (i, ap) :=
  Function.update_self ..

theorem add_address_of_ne (h : c ≠ t.nextConnection) : (t.add i ap username l).address c = t.address c :=
  Function.update_of_ne h ..

theorem key_update (t : RelayTable) (c : RelayConnectionId) (x : Option (RelayBindingId × SocketAddressPair)) :
    (fun d => (Function.update t.address c x d).map Prod.snd) =
      Function.update t.key c (x.map Prod.snd) := by
  funext d
  rw [Function.update_apply, Function.update_apply]
  split_ifs <;> rfl

theorem Kept.enroll (h : Kept t) (hnew : t.bindings username = none) : Kept (t.enroll username) := by
  have hfresh : t.members t.nextBinding = none := h.freshBinding _ (Nat.le_refl _)
  refine ⟨h.indexed, fun c i ap hc => ?_, fun i u l hi => ?_, fun u i => ?_, h.freshConnection,
    fun i hi => ?_⟩
  · obtain ⟨u, l, hi, hmem⟩ := h.owned c i ap hc
    have hne : i ≠ t.nextBinding := by
      rintro rfl
      rw [hfresh] at hi
      cases hi
    exact ⟨u, l, by rw [enroll_members, Function.update_of_ne hne, hi], hmem⟩
  · rcases eq_or_ne i t.nextBinding with rfl | hne
    · simp only [enroll_members, Function.update_self, Option.some.injEq, Prod.mk.injEq] at hi
      rw [← hi.2]
      exact ⟨.nil, fun c hc => absurd hc List.not_mem_nil⟩
    · rw [enroll_members, Function.update_of_ne hne] at hi
      exact h.member i u l hi
  · simp only [enroll_members, enroll_bindings, Function.update_apply]
    split_ifs with hu hi hi
    · simp only [hu, hi, Option.some.injEq, Prod.mk.injEq, true_and, true_iff]
      exact ⟨[], rfl⟩
    · rw [hu, ← h.named, hnew]
      simp only [Option.some.injEq, reduceCtorEq, iff_false]
      exact fun heq => hi heq.symm
    · rw [h.named, hi, hfresh]
      simp only [reduceCtorEq, exists_false, Option.some.injEq, Prod.mk.injEq, false_iff, not_exists,
        not_and]
      exact fun l heq => absurd heq.symm hu
    · exact h.named u i
  · have hle : t.nextBinding + 1 ≤ i := hi
    rw [enroll_members, Function.update_of_ne (Nat.ne_of_gt hle)]
    exact h.freshBinding i (Nat.le_of_succ_le hle)

theorem Kept.add (h : Kept t) (hi : t.members i = some (username, l))
    (hfind : t.connections.find SocketAddressPair.less ap = none)
    (hperm : l'.Perm (t.nextConnection :: l)) : Kept (t.add i ap username l') := by
  have hfresh : t.address t.nextConnection = none := h.freshConnection _ (Nat.le_refl _)
  obtain ⟨hnodup, hmem⟩ := h.member i username l hi
  refine ⟨?_, fun c j ap' hc => ?_, fun j u m hj => ?_, fun u j => ?_, fun c hc => ?_, fun j hj => ?_⟩
  · have hset := h.indexed.set ranked trivial hfind (by rw [key, hfresh, Option.map_none])
    have hkey : (t.add i ap username l').key = Function.update t.key t.nextConnection (some ap) :=
      key_update t _ (some (i, ap))
    rw [hkey]
    exact hset
  · rcases eq_or_ne c t.nextConnection with rfl | hne
    · simp only [add_address_self, Option.some.injEq, Prod.mk.injEq] at hc
      refine ⟨username, l', by rw [← hc.1, add_members_self], ?_⟩
      exact hperm.mem_iff.mpr List.mem_cons_self
    · rw [add_address_of_ne hne] at hc
      obtain ⟨u, m, hj, hcm⟩ := h.owned c j ap' hc
      rcases eq_or_ne j i with rfl | hji
      · obtain ⟨rfl, rfl⟩ := Prod.mk.inj (Option.some.inj (hi.symm.trans hj))
        exact ⟨username, l', add_members_self,
          hperm.mem_iff.mpr (List.mem_cons_of_mem _ hcm)⟩
      · exact ⟨u, m, by rw [add_members_of_ne hji, hj], hcm⟩
  · rcases eq_or_ne j i with rfl | hji
    · simp only [add_members_self, Option.some.injEq, Prod.mk.injEq] at hj
      obtain ⟨-, rfl⟩ := hj
      refine ⟨hperm.nodup_iff.mpr (List.nodup_cons.mpr ⟨fun hin => ?_, hnodup⟩), fun c hc => ?_⟩
      · obtain ⟨ap', hap'⟩ := hmem _ hin
        exact h.ne_next hap' rfl
      · rcases List.mem_cons.mp (hperm.mem_iff.mp hc) with rfl | hc
        · exact ⟨ap, add_address_self⟩
        · obtain ⟨ap', hap'⟩ := hmem c hc
          exact ⟨ap', by rw [add_address_of_ne (h.ne_next hap'), hap']⟩
    · rw [add_members_of_ne hji] at hj
      obtain ⟨hnodup', hmem'⟩ := h.member j u m hj
      refine ⟨hnodup', fun c hc => ?_⟩
      obtain ⟨ap', hap'⟩ := hmem' c hc
      exact ⟨ap', by rw [add_address_of_ne (h.ne_next hap'), hap']⟩
  · refine (h.named u j).trans ?_
    rcases eq_or_ne j i with rfl | hji
    · simp only [add_members_self, hi, Option.some.injEq, Prod.mk.injEq, exists_and_left]
      exact and_congr_right fun _ => ⟨fun _ => ⟨_, rfl⟩, fun _ => ⟨_, rfl⟩⟩
    · rw [add_members_of_ne hji]
  · have hle : t.nextConnection + 1 ≤ c := hc
    rw [add_address_of_ne (Nat.ne_of_gt hle)]
    exact h.freshConnection c (Nat.le_of_succ_le hle)
  · have hne : j ≠ i := by
      rintro rfl
      rw [h.freshBinding j hj] at hi
      cases hi
    rw [add_members_of_ne hne]
    exact h.freshBinding j hj

def retire (t : RelayTable) (i : RelayBindingId) (username : List Uint8)
    (l : List RelayConnectionId) (connections : Tree SocketAddressPair RelayConnectionId) :
    RelayTable :=
  { t with
    connections := connections
    bindings := Function.update t.bindings username none
    address := fun c => if c ∈ l then none else t.address c
    members := Function.update t.members i none }

theorem retire_members_of_ne {connections : Tree SocketAddressPair RelayConnectionId} (h : j ≠ i) :
    (t.retire i username l connections).members j = t.members j :=
  Function.update_of_ne h ..

theorem retire_members_self {connections : Tree SocketAddressPair RelayConnectionId} :
    (t.retire i username l connections).members i = none :=
  Function.update_self ..

theorem Kept.retire (h : Kept t) (hi : t.members i = some (username, l))
    {connections : Tree SocketAddressPair RelayConnectionId}
    (hindexed : Tree.Indexed SocketAddressPair.rank (fun _ => True) connections
      fun c => if c ∈ l then none else t.key c) : Kept (t.retire i username l connections) := by
  obtain ⟨-, hmem⟩ := h.member i username l hi
  have hother : ∀ {j u m}, (t.retire i username l connections).members j = some (u, m) →
      j ≠ i ∧ t.members j = some (u, m) := by
    intro j u m hj
    rcases eq_or_ne j i with rfl | hji
    · rw [retire_members_self] at hj
      cases hj
    · exact ⟨hji, by rwa [retire_members_of_ne hji] at hj⟩
  refine ⟨?_, fun c j ap hc => ?_, fun j u m hj => ?_, fun u j => ?_, fun c hc => ?_, fun j hj => ?_⟩
  · have hkey : (t.retire i username l connections).key = fun c => if c ∈ l then none else t.key c := by
      funext c
      simp only [key, RelayTable.retire]
      split_ifs <;> rfl
    rw [hkey]
    exact hindexed
  · simp only [RelayTable.retire] at hc
    split_ifs at hc with hcl
    obtain ⟨u, m, hj, hcm⟩ := h.owned c j ap hc
    have hji : j ≠ i := by
      rintro rfl
      obtain ⟨-, rfl⟩ := Prod.mk.inj (Option.some.inj (hi.symm.trans hj))
      exact hcl hcm
    exact ⟨u, m, by rw [retire_members_of_ne hji, hj], hcm⟩
  · obtain ⟨hji, hj⟩ := hother hj
    obtain ⟨hnodup, hmem'⟩ := h.member j u m hj
    refine ⟨hnodup, fun c hc => ?_⟩
    obtain ⟨ap, hap⟩ := hmem' c hc
    have hcl : c ∉ l := fun hcl => by
      obtain ⟨ap', hap'⟩ := hmem c hcl
      exact hji (Prod.mk.inj (Option.some.inj (hap.symm.trans hap'))).1
    exact ⟨ap, by simp only [RelayTable.retire, if_neg hcl, hap]⟩
  · constructor
    · intro hu
      have hne : u ≠ username := by
        rintro rfl
        simp only [RelayTable.retire, Function.update_self, reduceCtorEq] at hu
      simp only [RelayTable.retire, Function.update_of_ne hne] at hu
      obtain ⟨m, hj⟩ := (h.named u j).mp hu
      have hji : j ≠ i := by
        rintro rfl
        exact hne (Prod.mk.inj (Option.some.inj (hj.symm.trans hi))).1
      exact ⟨m, by rw [retire_members_of_ne hji, hj]⟩
    · rintro ⟨m, hj⟩
      obtain ⟨hji, hj⟩ := hother hj
      have hu := (h.named u j).mpr ⟨m, hj⟩
      have hne : u ≠ username := by
        rintro rfl
        exact hji (Option.some.inj (hu.symm.trans ((h.named u i).mpr ⟨l, hi⟩)))
      simp only [RelayTable.retire, Function.update_of_ne hne, hu]
  · have hc' := h.freshConnection c hc
    simp only [RelayTable.retire, hc', ite_self]
  · rcases eq_or_ne j i with rfl | hji
    · exact retire_members_self
    · rw [retire_members_of_ne hji]
      exact h.freshBinding j hj

end RelayTable

/-! ## What steps do to the table -/

/-- The connection that an output is sent over. -/
def RelayOutput.conn : RelayOutput → Option RelayConnectionId
  | packet c .. => some c
  | indication c .. => some c
  | stun .. => none
  | assertFailed => none

def RelayOutput.On (c : RelayConnectionId) (o : RelayOutput) : Prop :=
  o ≠ assertFailed ∧ ∀ d, o.conn = some d → d = c

theorem RelayOutput.on_packet : (packet c socket data addr).On c :=
  ⟨nofun, fun _ h => (Option.some.inj h).symm⟩

theorem RelayOutput.on_indication : (indication c socket msg addr).On c :=
  ⟨nofun, fun _ h => (Option.some.inj h).symm⟩

theorem RelayOutput.on_stun : (stun socket msg addr).On c :=
  ⟨nofun, nofun⟩

theorem RelayOutput.conn_eq_none {o : RelayOutput} (h : ∀ c, o.On c) : o.conn = none := by
  rw [Option.eq_none_iff_forall_not_mem]
  intro d hd
  exact Nat.succ_ne_self d ((h (d + 1)).2 d hd).symm

namespace RelayServer

variable {s s' : RelayServer} {c d e : RelayConnectionId} {i j : RelayBindingId}
  {ap : SocketAddressPair} {out failed : List RelayOutput}

def table (s : RelayServer) : RelayTable where
  connections := s.connections
  bindings := s.bindings
  address := fun c => (s.connection c).map fun conn => (conn.binding, conn.addrPair)
  members := fun i => (s.binding i).map fun b => (b.username, b.connections)
  nextBinding := s.nextBinding
  nextConnection := s.nextConnection

theorem address_eq {conn : RelayServerConnection} (h : s.connection c = some conn) :
    s.table.address c = some (conn.binding, conn.addrPair) := by
  simp only [table, h, Option.map_some]

theorem members_eq (h : s.binding i = some b) : s.table.members i = some (b.username, b.connections) := by
  simp only [table, h, Option.map_some]

theorem updateBinding_table (hf : ∀ b, (f b).username = b.username ∧ (f b).connections = b.connections) :
    (s.updateBinding i f).table = s.table := by
  have hmembers : (s.updateBinding i f).table.members = s.table.members := by
    funext j
    simp only [table, updateBinding]
    split_ifs with hj
    · rw [hj, Option.map_map]
      congr 1
      funext b
      simp only [Function.comp_apply, (hf b).1, (hf b).2]
    · rfl
  rw [RelayTable.mk.injEq]
  exact ⟨rfl, rfl, rfl, hmembers, rfl, rfl⟩

theorem updateConnection_table {f : RelayServerConnection → RelayServerConnection}
    (hf : ∀ conn, (f conn).binding = conn.binding ∧ (f conn).addrPair = conn.addrPair) :
    (s.updateConnection c f).table = s.table := by
  have haddress : (s.updateConnection c f).table.address = s.table.address := by
    funext d
    simp only [table, updateConnection]
    split_ifs with hd
    · rw [hd, Option.map_map]
      congr 1
      funext conn
      simp only [Function.comp_apply, (hf conn).1, (hf conn).2]
    · rfl
  rw [RelayTable.mk.injEq]
  exact ⟨rfl, rfl, haddress, rfl, rfl, rfl⟩

@[simp] theorem noteUsed_table : (s.noteUsed i).table = s.table :=
  updateBinding_table fun _ => ⟨rfl, rfl⟩

@[simp] theorem lock_table : (s.lock c).table = s.table := updateConnection_table fun _ => ⟨rfl, rfl⟩

@[simp] theorem setDefaultDestination_table : (s.setDefaultDestination c addr).table = s.table :=
  updateConnection_table fun _ => ⟨rfl, rfl⟩

theorem newBinding_table {username : List Uint8} {lifetime : Uint32} :
    (s.newBinding username lifetime).1.table = s.table.enroll username := by
  rw [RelayTable.mk.injEq]
  refine ⟨rfl, ?_, rfl, ?_, rfl, rfl⟩
  · funext u
    exact (Function.update_apply ..).symm
  · funext j
    simp only [newBinding, RelayTable.enroll, table, Function.update_apply]
    split_ifs <;> rfl

/-! ## Sending -/

theorem send_spec (h : s.send c data = some (s', out)) : s'.table = s.table ∧ ∀ o ∈ out, o.On c := by
  obtain ⟨conn, -, h⟩ := Option.bind_eq_some_iff.mp h
  cases h
  exact ⟨noteUsed_table, fun o ho => List.mem_singleton.mp ho ▸ RelayOutput.on_packet⟩

theorem sendFrom_spec (h : s.sendFrom c data addr = some (s', out)) : s'.table = s.table ∧ ∀ o ∈ out, o.On c := by
  obtain ⟨conn, -, h⟩ := Option.bind_eq_some_iff.mp h
  obtain ⟨b, -, h⟩ := Option.bind_eq_some_iff.mp h
  split_ifs at h with hlocked
  · exact send_spec h
  · cases h
    exact ⟨noteUsed_table, fun o ho => List.mem_singleton.mp ho ▸ RelayOutput.on_indication⟩

theorem sendIfLocked_spec (h : s.sendIfLocked c data = some (s', out)) : s'.table = s.table ∧ ∀ o ∈ out, o.On c := by
  obtain ⟨conn, -, h⟩ := Option.bind_eq_some_iff.mp h
  split_ifs at h with hlocked
  · exact send_spec h
  · cases h
    exact ⟨rfl, fun o ho => absurd ho List.not_mem_nil⟩

theorem sendStun_spec (h : s.sendStun c msg = some (s', out)) : s'.table = s.table ∧ ∀ o ∈ out, ∀ d, o.On d := by
  obtain ⟨conn, -, h⟩ := Option.bind_eq_some_iff.mp h
  cases h
  exact ⟨noteUsed_table, fun o ho d => List.mem_singleton.mp ho ▸ RelayOutput.on_stun⟩

theorem sendStunError_spec {code : ℕ} {desc : List Uint8} (h : s.sendStunError c msg code desc = some (s', out)) :
    s'.table = s.table ∧ ∀ o ∈ out, ∀ d, o.On d := by
  obtain ⟨conn, -, h⟩ := Option.bind_eq_some_iff.mp h
  obtain ⟨b, -, h⟩ := Option.bind_eq_some_iff.mp h
  cases h
  exact ⟨rfl, fun o ho d => List.mem_singleton.mp ho ▸ RelayOutput.on_stun⟩

theorem answerAllocate_spec (h : s.answerAllocate c request random = some (s', out)) :
    s'.table = s.table ∧ ∀ o ∈ out, ∀ d, o.On d := by
  obtain ⟨conn, -, h⟩ := Option.bind_eq_some_iff.mp h
  obtain ⟨b, -, h⟩ := Option.bind_eq_some_iff.mp h
  obtain ⟨external, -, h⟩ := Option.bind_eq_some_iff.mp h
  exact sendStun_spec h

theorem answerSend_spec (h : s.answerSend c request addr = some (s', out)) :
    s'.table = s.table ∧ ∀ o ∈ out, ∀ d, o.On d := by
  obtain ⟨conn, -, h⟩ := Option.bind_eq_some_iff.mp h
  obtain ⟨b, -, h⟩ := Option.bind_eq_some_iff.mp h
  have hnothing : ∀ {r : RelayServer × List RelayOutput}, some (s, []) = some r →
      r.1.table = s.table ∧ ∀ o ∈ r.2, ∀ d, o.On d := by
    rintro r hr
    rw [← Option.some.inj hr]
    exact ⟨rfl, fun o ho => absurd ho List.not_mem_nil⟩
  split at h
  · exact hnothing h
  · split_ifs at h with hoptions
    · obtain ⟨htable, hout⟩ := sendStun_spec h
      exact ⟨by rw [htable, lock_table, setDefaultDestination_table], hout⟩
    · exact hnothing h

theorem handleRelayStun_error (h : handleRelayStun bytes addr socket = .error out) : ∀ o ∈ out, ∀ d, o.On d := by
  unfold handleRelayStun at h
  split at h
  · obtain rfl := Except.error.inj h
    exact fun o ho => absurd ho List.not_mem_nil
  · split at h
    · obtain rfl := Except.error.inj h
      exact fun o ho d => List.mem_singleton.mp ho ▸ RelayOutput.on_stun
    · cases h

/-! ## New connections -/

def Extends (s s' : RelayServer) : Prop :=
  ∀ c v, s.table.address c = some v → s'.table.address c = some v

theorem extends_of_table (h : s'.table = s.table) : s.Extends s' := fun c v hc => by rwa [h]

theorem Extends.trans {s₁ : RelayServer} (h : s.Extends s₁) (h' : s₁.Extends s') : s.Extends s' :=
  fun c v hc => h' c v (h c v hc)

theorem newConnection_spec (h : s.table.Kept) (hb : s.binding i = some b) (hfind : s.findConnection ap = none)
    (hf : ∀ b, (f b).username = b.username ∧ (f b).connections.Perm (s.nextConnection :: b.connections))
    (hadd : ((s.newConnection i ap socket).1.updateBinding i f).addConnection s.nextConnection =
      some (s', failed)) :
    failed = [] ∧ s'.table.Kept ∧ s.Extends s' ∧
      s'.table.address s.nextConnection = some (i, ap) := by
  obtain ⟨conn, hconn, hadd⟩ := Option.bind_eq_some_iff.mp hadd
  simp only [newConnection, updateBinding, if_true] at hconn
  cases hconn
  obtain ⟨hs', hfailed⟩ := Prod.mk.inj (Option.some.inj hadd)
  obtain ⟨hname, hperm⟩ := hf { b with lastUsed := s.time }
  have htable : s'.table =
      s.table.add i ap b.username (f { b with lastUsed := s.time }).connections := by
    rw [← hs', RelayTable.mk.injEq]
    refine ⟨rfl, rfl, ?_, ?_, rfl, rfl⟩
    · funext d
      simp only [newConnection, updateBinding, table, RelayTable.add, Function.update_apply]
      split_ifs <;> rfl
    · funext j
      simp only [newConnection, updateBinding, noteUsed, table, RelayTable.add, Function.update_apply]
      split_ifs with hj
      · rw [hb]
        exact congrArg some (Prod.ext hname rfl)
      · rfl
  have hnone : ((s.newConnection i ap socket).1.updateBinding i f).findConnection ap = none := hfind
  rw [hnone] at hfailed
  refine ⟨hfailed.symm, ?_, fun c v hc => ?_, ?_⟩
  · rw [htable]
    exact h.add (members_eq hb) hfind hperm
  · rw [htable, RelayTable.add_address_of_ne (h.ne_next hc), hc]
  · rw [htable]
    exact RelayTable.add_address_self

theorem binding_of_address {v : SocketAddressPair} (h : s.table.Kept)
    (hc : s.table.address c = some (i, v)) : ∃ b, s.binding i = some b ∧ c ∈ b.connections := by
  obtain ⟨username, l, hi, hmem⟩ := h.owned c i v hc
  obtain ⟨b, hb, heq⟩ := Option.map_eq_some_iff.mp hi
  obtain ⟨-, rfl⟩ := Prod.mk.inj heq
  exact ⟨b, hb, hmem⟩

theorem address_of_mem (h : s.table.Kept) (hb : s.binding i = some b)
    (hc : c ∈ b.connections) : ∃ v, s.table.address c = some (i, v) :=
  (h.member i _ _ (members_eq hb)).2 c hc

theorem getExternalConnection_mem (h : s.getExternalConnection b addr = some e) : e ∈ b.connections :=
  List.mem_append_right _ (List.mem_of_find?_eq_some h)

theorem getInternalConnection_mem (h : s.getInternalConnection b addr = some c) : c ∈ b.connections := by
  rcases Option.or_eq_some_iff.mp h with h | ⟨-, h⟩
  · exact List.mem_append_left _ (List.mem_of_find?_eq_some h)
  · exact List.mem_append_left _ (List.mem_of_head? h)

/-! ## Handlers -/

/-- The address that a Send request names is not that of another connection. -/
def Unclaimed (s : RelayServer) (i : RelayBindingId) (addr : SocketAddress) : Prop :=
  ∀ b socket, s.binding i = some b → s.getExternalConnection b addr = none →
    s.externalSockets.head? = some socket → s.findConnection ⟨addr, socket.localAddr⟩ = none

theorem externalConnectionFor_spec (h : s.table.Kept) (hunclaimed : s.Unclaimed i addr)
    (hfor : s.externalConnectionFor i addr = some (s', e, failed)) :
    failed = [] ∧ s'.table.Kept ∧ s.Extends s' ∧ ∃ v, s'.table.address e = some (i, v) := by
  obtain ⟨b, hb, hfor⟩ := Option.bind_eq_some_iff.mp hfor
  split at hfor
  · next e' he =>
    obtain ⟨rfl, heq⟩ := Prod.mk.inj (Option.some.inj hfor)
    obtain ⟨rfl, rfl⟩ := Prod.mk.inj heq
    exact ⟨rfl, h, extends_of_table rfl, address_of_mem h hb (getExternalConnection_mem he)⟩
  · next hnone =>
    obtain ⟨socket, hsocket, hfor⟩ := Option.bind_eq_some_iff.mp hfor
    obtain ⟨⟨s₁, failed₁⟩, hadd, hfor⟩ := Option.bind_eq_some_iff.mp hfor
    obtain ⟨rfl, heq⟩ := Prod.mk.inj (Option.some.inj hfor)
    obtain ⟨rfl, rfl⟩ := Prod.mk.inj heq
    obtain ⟨hfailed, hkept, hextends, haddress⟩ :=
      newConnection_spec h hb (hunclaimed b socket hb hnone hsocket)
        (f := fun b => { b with externalConnections := b.externalConnections ++ [s.nextConnection] })
        (fun b => ⟨rfl, b.connections_addExternal _⟩) hadd
    exact ⟨hfailed, hkept, hextends, _, haddress⟩

/-- The connections of the binding of `c` are kept, and what is sent is sent on one of them. -/
structure SentFor (s s' : RelayServer) (c : RelayConnectionId) (out : List RelayOutput) : Prop where
  kept : s'.table.Kept
  ext : s.Extends s'
  sent : ∃ e i v w, (∀ o ∈ out, o.On e) ∧ s.table.address c = some (i, v) ∧
    s'.table.address e = some (i, w)

theorem sentFor_of_answers (h : s.table.Kept) (hc : s.table.address c = some v)
    (hspec : s'.table = s.table ∧ ∀ o ∈ out, ∀ d, o.On d) : s.SentFor s' c out := by
  refine ⟨by rwa [hspec.1], extends_of_table hspec.1, c, v.1, v.2, v.2, fun o ho => hspec.2 o ho c, hc, ?_⟩
  rw [hspec.1]
  exact hc

theorem handleStunSend_spec {conn : RelayServerConnection} (h : s.table.Kept) (hc : s.connection c = some conn)
    (hunclaimed : ∀ addr data, request.getSocketAddress attrDestinationAddress = some addr →
      request.getString attrData = some data → s.Unclaimed conn.binding (.ofIP addr.ip addr.port))
    (hsend : s.handleStunSend c request = some (s', out)) : s.SentFor s' c out := by
  unfold handleStunSend at hsend
  split at hsend
  · next addr data haddr hdata =>
    obtain ⟨conn', hc', hsend⟩ := Option.bind_eq_some_iff.mp hsend
    obtain rfl := Option.some.inj (hc.symm.trans hc')
    obtain ⟨⟨s₁, e, failed⟩, hfor, hsend⟩ := Option.bind_eq_some_iff.mp hsend
    obtain ⟨⟨s₂, sent⟩, hsent, hsend⟩ := Option.bind_eq_some_iff.mp hsend
    obtain ⟨⟨s₃, out₃⟩, hanswer, hsend⟩ := Option.bind_eq_some_iff.mp hsend
    obtain ⟨rfl, rfl⟩ := Prod.mk.inj (Option.some.inj hsend)
    obtain ⟨rfl, hkept, hextends, v, haddress⟩ :=
      externalConnectionFor_spec h (hunclaimed addr data haddr hdata) hfor
    obtain ⟨htable₂, hsent⟩ := sendIfLocked_spec hsent
    obtain ⟨htable₃, hanswer⟩ := answerSend_spec hanswer
    have htable : s₃.table = s₁.table := htable₃.trans htable₂
    refine ⟨by rwa [htable], hextends.trans (extends_of_table htable), e, conn.binding, conn.addrPair, v,
      fun o ho => ?_, address_eq hc, by rwa [htable]⟩
    rcases List.mem_append.mp ho with ho | ho
    · exact hsent o ho
    · exact hanswer o ho e
  · exact sentFor_of_answers h (address_eq hc) (sendStunError_spec hsend)

/-- The Send request that an internal packet may be. -/
def sendRequest (s : RelayServer) (c : RelayConnectionId) (bytes : List Uint8) :
    Option (RelayBindingId × SocketAddress) := do
  let conn ← s.connection c
  let b ← s.binding conn.binding
  let (request, _) ← StunMessage.read .relay bytes
  let username ← request.getString attrUsername
  let addr ← request.getSocketAddress attrDestinationAddress
  let _ ← request.getString attrData
  if b.hasMagicCookie bytes ∧ username = b.username ∧ request.type = stunSendRequest then
    some (conn.binding, .ofIP addr.ip addr.port)
  else none

theorem handleStun_spec {conn : RelayServerConnection} (h : s.table.Kept) (hc : s.connection c = some conn)
    (hb : s.binding conn.binding = some b) (hcookie : b.hasMagicCookie bytes = true)
    (hunclaimed : ∀ i addr, s.sendRequest c bytes = some (i, addr) → s.Unclaimed i addr)
    (hstun : s.handleStun c bytes random = some (s', out)) : s.SentFor s' c out := by
  obtain ⟨conn', hc', hstun⟩ := Option.bind_eq_some_iff.mp hstun
  obtain rfl := Option.some.inj (hc.symm.trans hc')
  split at hstun
  · next out' hout =>
    cases hstun
    exact sentFor_of_answers h (address_eq hc) ⟨rfl, handleRelayStun_error hout⟩
  · next request username hread =>
    obtain ⟨b', hb', hstun⟩ := Option.bind_eq_some_iff.mp hstun
    obtain rfl := Option.some.inj (hb.symm.trans hb')
    split_ifs at hstun with huser hsend hallocate
    · exact sentFor_of_answers h (address_eq hc) (sendStunError_spec hstun)
    · refine handleStunSend_spec h hc (fun addr data haddr hdata => hunclaimed _ _ ?_) hstun
      unfold handleRelayStun at hread
      split at hread
      · cases hread
      · next msg rest hmsg =>
        split at hread
        · cases hread
        · next username' husername =>
          obtain ⟨rfl, rfl⟩ := Prod.mk.inj (Except.ok.inj hread)
          rw [not_not] at huser
          simp only [sendRequest, hc, hb, hmsg, husername, haddr, hdata, Option.bind_eq_bind,
            Option.bind_some, hcookie, huser, hsend, and_self, if_true]
    · exact sentFor_of_answers h (address_eq hc) (answerAllocate_spec hstun)
    · exact sentFor_of_answers h (address_eq hc) (sendStunError_spec hstun)

theorem bindingFor_spec (h : s.table.Kept) (username : List Uint8) (request : StunMessage) :
    (s.bindingFor username request).1.table.Kept ∧
      (s.bindingFor username request).1.connections = s.connections ∧
      ∃ b, (s.bindingFor username request).1.binding (s.bindingFor username request).2 = some b := by
  unfold bindingFor
  split
  · next i hi =>
    obtain ⟨l, hl⟩ := (h.named username i).mp hi
    obtain ⟨b, hb, -⟩ := Option.map_eq_some_iff.mp hl
    exact ⟨h, rfl, b, hb⟩
  · next hnone =>
    refine ⟨?_, rfl, _, if_pos rfl⟩
    rw [newBinding_table]
    exact h.enroll hnone

theorem allocateConnection_spec (h : s.table.Kept) (hb : s.binding i = some b) (hfind : s.findConnection ap = none)
    (hallocate : s.allocateConnection i request ap socket random = some (s', out)) :
    s'.table.Kept ∧ ∀ o ∈ out, ∀ d, o.On d := by
  obtain ⟨⟨s₂, failed⟩, hadd, hallocate⟩ := Option.bind_eq_some_iff.mp hallocate
  obtain ⟨⟨s₃, out₃⟩, hanswer, hallocate⟩ := Option.bind_eq_some_iff.mp hallocate
  cases hallocate
  obtain ⟨rfl, hkept, -, -⟩ := newConnection_spec h hb hfind
    (f := fun b => { b with internalConnections := b.internalConnections ++ [s.nextConnection] })
    (fun b => ⟨rfl, b.connections_addInternal _⟩) hadd
  obtain ⟨htable, hout⟩ := answerAllocate_spec hanswer
  exact ⟨by rwa [htable], hout⟩

theorem handleStunAllocate_spec (h : s.table.Kept) (hfind : s.findConnection ap = none)
    (hallocate : s.handleStunAllocate bytes ap socket random = some (s', out)) :
    s'.table.Kept ∧ ∀ o ∈ out, ∀ d, o.On d := by
  unfold handleStunAllocate at hallocate
  split at hallocate
  · next out' hout =>
    cases hallocate
    exact ⟨h, handleRelayStun_error hout⟩
  · next request username _ =>
    split_ifs at hallocate with htype
    · cases hallocate
      exact ⟨h, fun o ho d => List.mem_singleton.mp ho ▸ RelayOutput.on_stun⟩
    · obtain ⟨hkept, hconnections, b, hb⟩ := bindingFor_spec h username request
      refine allocateConnection_spec hkept hb ?_ hallocate
      unfold findConnection
      rw [hconnections]
      exact hfind

/-- What a packet of the address pair `ap` has led to. -/
structure Relayed (s' : RelayServer) (ap : SocketAddressPair) (out : List RelayOutput) : Prop where
  kept : s'.table.Kept
  sent : (∀ o ∈ out, ∀ d, o.On d) ∨ ∃ c e i v w, s'.findConnection ap = some c ∧
    s'.table.address c = some (i, v) ∧ s'.table.address e = some (i, w) ∧ ∀ o ∈ out, o.On e

theorem findConnection_eq_some (h : s.table.Kept) :
    s.findConnection ap = some c ↔ ∃ i v, s.table.address c = some (i, v) ∧ v.rank = ap.rank := by
  refine (h.indexed.find_eq_some RelayTable.ranked trivial).trans ?_
  constructor
  · rintro ⟨v, hkey, hrank⟩
    obtain ⟨⟨i, w⟩, hc, rfl⟩ := Option.map_eq_some_iff.mp hkey
    exact ⟨i, w, hc, hrank⟩
  · rintro ⟨i, v, hc, hrank⟩
    exact ⟨v, Option.map_eq_some_iff.mpr ⟨(i, v), hc, rfl⟩, hrank⟩

theorem SentFor.relayed (h : s.SentFor s' c out) (hkept : s.table.Kept)
    (hfind : s.findConnection ap = some c) : Relayed s' ap out := by
  obtain ⟨e, i, v, w, hon, hc, he⟩ := h.sent
  obtain ⟨j, v', hc', hrank⟩ := (findConnection_eq_some hkept).mp hfind
  exact ⟨h.kept, .inr ⟨c, e, i, v, w, (findConnection_eq_some h.kept).mpr ⟨j, v', h.ext c _ hc', hrank⟩,
    h.ext c _ hc, he, hon⟩⟩

/-- **A packet of a client goes over connections of its binding alone**. -/
theorem onInternalPacket_spec {socket : RelaySocket} (h : s.table.Kept)
    (hunclaimed : ∀ c i dest, s.findConnection ⟨addr, socket.localAddr⟩ = some c →
      s.sendRequest c bytes = some (i, dest) → s.Unclaimed i dest)
    (hpacket : s.onInternalPacket socket bytes addr random = some (s', out)) :
    Relayed s' ⟨addr, socket.localAddr⟩ out := by
  unfold onInternalPacket at hpacket
  dsimp only at hpacket
  split at hpacket
  · next hfind =>
    obtain ⟨hkept, hout⟩ := handleStunAllocate_spec h hfind hpacket
    exact ⟨hkept, .inl hout⟩
  · next c hfind =>
    refine SentFor.relayed (s := s) (c := c) ?_ h hfind
    obtain ⟨conn, hc, hpacket⟩ := Option.bind_eq_some_iff.mp hpacket
    obtain ⟨b, hb, hpacket⟩ := Option.bind_eq_some_iff.mp hpacket
    have hnothing : some (s, []) = some (s', out) → s.SentFor s' c out := by
      intro heq
      cases heq
      exact sentFor_of_answers h (address_eq hc) ⟨rfl, fun o ho => absurd ho List.not_mem_nil⟩
    split_ifs at hpacket with hcookie hlocked
    · exact handleStun_spec h hc hb hcookie (fun i dest => hunclaimed c i dest hfind) hpacket
    · exact hnothing hpacket
    · split at hpacket
      · next e he =>
        obtain ⟨htable, hon⟩ := sendIfLocked_spec hpacket
        obtain ⟨w, hw⟩ := address_of_mem h hb (getExternalConnection_mem he)
        exact ⟨by rwa [htable], extends_of_table htable, e, conn.binding, conn.addrPair, w, hon,
          address_eq hc, by rwa [htable]⟩
      · exact hnothing hpacket

/-- **A packet of a peer goes over the connection of its address alone**. -/
theorem onExternalPacket_spec {socket : RelaySocket}
    (h : s.table.Kept) (hpacket : s.onExternalPacket socket bytes addr = some (s', out)) :
    Relayed s' ⟨addr, socket.localAddr⟩ out := by
  unfold onExternalPacket at hpacket
  dsimp only at hpacket
  have hnothing : some (s, []) = some (s', out) → Relayed s' ⟨addr, socket.localAddr⟩ out := by
    intro heq
    cases heq
    exact ⟨h, .inl fun o ho => absurd ho List.not_mem_nil⟩
  split at hpacket
  · next e hfind =>
    obtain ⟨conn, he, hpacket⟩ := Option.bind_eq_some_iff.mp hpacket
    obtain ⟨b, hb, hpacket⟩ := Option.bind_eq_some_iff.mp hpacket
    obtain ⟨c, hc, hpacket⟩ := Option.bind_eq_some_iff.mp hpacket
    obtain ⟨⟨s₁, out₁⟩, hsent, hpacket⟩ := Option.bind_eq_some_iff.mp hpacket
    cases hpacket
    obtain ⟨htable, hon⟩ := sendFrom_spec hsent
    obtain ⟨w, hw⟩ := address_of_mem h hb (getInternalConnection_mem hc)
    have htable' : (s₁.lock e).table = s.table := lock_table.trans htable
    refine SentFor.relayed (s := s) (c := e) ?_ h hfind
    exact ⟨by rwa [htable'], extends_of_table htable', c, conn.binding, conn.addrPair, w, hon,
      address_eq he, by rwa [htable']⟩
  · next hfind =>
    split at hpacket
    · exact hnothing hpacket
    split at hpacket
    · exact hnothing hpacket
    split at hpacket
    · exact hnothing hpacket
    · next i hi =>
      obtain ⟨⟨s₁, failed⟩, hadd, hpacket⟩ := Option.bind_eq_some_iff.mp hpacket
      obtain ⟨b, hb, hpacket⟩ := Option.bind_eq_some_iff.mp hpacket
      obtain ⟨c, hc, hpacket⟩ := Option.bind_eq_some_iff.mp hpacket
      obtain ⟨⟨s₂, out₂⟩, hsent, hpacket⟩ := Option.bind_eq_some_iff.mp hpacket
      cases hpacket
      obtain ⟨l, hl⟩ := (h.named _ i).mp hi
      obtain ⟨b₀, hb₀, -⟩ := Option.map_eq_some_iff.mp hl
      obtain ⟨rfl, hkept, -, haddress⟩ := newConnection_spec h hb₀ hfind
        (f := fun b => { b with externalConnections := b.externalConnections ++ [s.nextConnection] })
        (fun b => ⟨rfl, b.connections_addExternal _⟩) hadd
      obtain ⟨htable, hon⟩ := sendFrom_spec hsent
      rw [lock_table] at htable
      obtain ⟨w, hw⟩ := address_of_mem hkept hb (getInternalConnection_mem hc)
      have hkept₂ : s₂.table.Kept := by rwa [htable]
      rw [← htable] at haddress hw
      exact ⟨hkept₂, .inr ⟨s.nextConnection, c, i, _, w,
        (findConnection_eq_some hkept₂).mpr ⟨i, _, haddress, rfl⟩, haddress, hw, hon⟩⟩

/-! ## Expiry -/

theorem deleteConnections_append (l l' : List RelayConnectionId) (s : RelayServer) :
    deleteConnections (l ++ l') s = (deleteConnections l s).bind (deleteConnections l') := by
  induction l generalizing s with
  | nil => rfl
  | cons c cs ih =>
    rw [List.cons_append, deleteConnections, deleteConnections]
    cases s.removeConnection c with
    | none => rfl
    | some s₁ => exact ih _

/-- What `delete` of connections leaves: the others, and an index of them. -/
structure Deleted (s s' : RelayServer) (l : List RelayConnectionId) : Prop where
  indexed : Tree.Indexed SocketAddressPair.rank (fun _ => True) s'.connections
    fun c => if c ∈ l then none else s.table.key c
  connection : s'.connection = fun c => if c ∈ l then none else s.connection c
  binding : s'.binding = s.binding
  bindings : s'.bindings = s.bindings
  nextBinding : s'.nextBinding = s.nextBinding
  nextConnection : s'.nextConnection = s.nextConnection

theorem deleteConnections_spec (l : List RelayConnectionId) (s : RelayServer)
    (hindexed : Tree.Indexed SocketAddressPair.rank (fun _ => True) s.connections s.table.key)
    (hnodup : l.Nodup) (hmem : ∀ c ∈ l, ∃ conn, s.connection c = some conn) :
    ∃ s', deleteConnections l s = some s' ∧ Deleted s s' l := by
  induction l generalizing s with
  | nil =>
    refine ⟨s, rfl, ⟨?_, ?_, rfl, rfl, rfl, rfl⟩⟩
    · simpa only [List.not_mem_nil, if_false] using hindexed
    · simp only [List.not_mem_nil, if_false]
  | cons c cs ih =>
    obtain ⟨hnotin, hnodup⟩ := List.nodup_cons.mp hnodup
    obtain ⟨conn, hc⟩ := hmem c List.mem_cons_self
    have hkey : s.table.key c = some conn.addrPair := by
      rw [RelayTable.key, address_eq hc, Option.map_some]
    let s₁ : RelayServer := { s with
      connections := s.connections.erase SocketAddressPair.less conn.addrPair
      connection := fun d => if d = c then none else s.connection d }
    have hkey₁ : s₁.table.key = Function.update s.table.key c none := by
      funext d
      simp only [RelayTable.key, table, s₁, Function.update_apply]
      split_ifs <;> rfl
    have hindexed₁ : Tree.Indexed SocketAddressPair.rank (fun _ => True) s₁.connections s₁.table.key := by
      rw [hkey₁]
      exact hindexed.erase RelayTable.ranked hkey
    have hmem₁ : ∀ d ∈ cs, ∃ conn, s₁.connection d = some conn := by
      intro d hd
      have hne : d ≠ c := fun heq => hnotin (heq ▸ hd)
      obtain ⟨conn', hconn'⟩ := hmem d (List.mem_cons_of_mem _ hd)
      exact ⟨conn', by rw [show s₁.connection d = _ from if_neg hne, hconn']⟩
    obtain ⟨s', hdelete, hdeleted⟩ := ih s₁ hindexed₁ hnodup hmem₁
    have hremove : s.removeConnection c = some { s with
        connections := s.connections.erase SocketAddressPair.less conn.addrPair } := by
      unfold removeConnection findConnection
      rw [hc, Option.bind_eq_bind, Option.bind_some, hindexed.isSome_find RelayTable.ranked hkey]
      rfl
    refine ⟨s', by rw [deleteConnections, hremove]; exact hdelete, ⟨?_, ?_, hdeleted.binding,
      hdeleted.bindings, hdeleted.nextBinding, hdeleted.nextConnection⟩⟩
    · have hsame : (fun d => if d ∈ cs then none else s₁.table.key d) =
          fun d => if d ∈ c :: cs then none else s.table.key d := by
        funext d
        rw [hkey₁, Function.update_apply]
        grind
      rw [← hsame]
      exact hdeleted.indexed
    · rw [hdeleted.connection]
      funext d
      simp only [s₁]
      grind

/-- **Deleting a binding takes its connections out of the map**. -/
theorem deleteBinding_spec (h : s.table.Kept) (hb : s.binding i = some b) :
    ∃ s', s.deleteBinding i = some s' ∧ s'.table.Kept := by
  obtain ⟨hnodup, hmem⟩ := h.member i _ _ (members_eq hb)
  have hconn : ∀ c ∈ b.connections, ∃ conn, s.connection c = some conn := by
    intro c hc
    obtain ⟨ap, hap⟩ := hmem c hc
    obtain ⟨conn, hconn, -⟩ := Option.map_eq_some_iff.mp hap
    exact ⟨conn, hconn⟩
  obtain ⟨s₁, hdelete, hdeleted⟩ := deleteConnections_spec b.connections s h.indexed hnodup hconn
  have hname : s₁.bindings b.username = some i := by
    rw [hdeleted.bindings]
    exact (h.named b.username i).mpr ⟨_, members_eq hb⟩
  refine ⟨{ s₁ with
    bindings := fun u => if u = b.username then none else s₁.bindings u
    binding := fun j => if j = i then none else s₁.binding j }, ?_, ?_⟩
  · rw [RelayServerBinding.connections, deleteConnections_append] at hdelete
    obtain ⟨s₂, hinternal, hexternal⟩ := Option.bind_eq_some_iff.mp hdelete
    simp only [deleteBinding, hb, hinternal, hexternal, removeBinding, hname, Option.bind_eq_bind,
      Option.bind_some]
  · have htable : RelayServer.table { s₁ with
        bindings := fun u => if u = b.username then none else s₁.bindings u
        binding := fun j => if j = i then none else s₁.binding j } =
          s.table.retire i b.username b.connections s₁.connections := by
      rw [RelayTable.mk.injEq]
      refine ⟨rfl, ?_, ?_, ?_, hdeleted.nextBinding, hdeleted.nextConnection⟩
      · funext u
        rw [hdeleted.bindings]
        exact (Function.update_apply ..).symm
      · funext c
        simp only [table, RelayTable.retire, hdeleted.connection]
        split_ifs <;> rfl
      · funext j
        simp only [table, RelayTable.retire, hdeleted.binding, Function.update_apply]
        split_ifs <;> rfl
    rw [htable]
    exact h.retire (members_eq hb) hdeleted.indexed

/-! ## Runs -/

/-- A Send request names no connection but an external one of its binding. -/
def KeepsTable (s : RelayServer) : Event → Prop
  | .internalPacket socket bytes addr _ =>
    ∀ c i dest, s.findConnection ⟨addr, socket.localAddr⟩ = some c →
      s.sendRequest c bytes = some (i, dest) → s.Unclaimed i dest
  | _ => True

def Event.addrPair : Event → Option SocketAddressPair
  | .internalPacket socket _ addr _ => some ⟨addr, socket.localAddr⟩
  | .externalPacket socket _ addr => some ⟨addr, socket.localAddr⟩
  | _ => none

theorem onMessage_table (h : s.onMessage i = some s') : s'.table = s.table := by
  obtain ⟨b, -, h⟩ := Option.bind_eq_some_iff.mp h
  split_ifs at h
  · rw [← Option.some.inj h]
    exact updateBinding_table fun _ => ⟨rfl, rfl⟩
  · rw [← Option.some.inj h]
    exact updateBinding_table fun _ => ⟨rfl, rfl⟩

theorem step_spec {ev : Event} (h : s.table.Kept) (hkeeps : s.KeepsTable ev) (hstep : s.step ev = some (s', out)) :
    s'.table.Kept ∧ (out = [] ∨ ∃ ap, ev.addrPair = some ap ∧ Relayed s' ap out) := by
  cases ev with
  | internalPacket socket bytes addr random =>
    have hrelayed := onInternalPacket_spec h hkeeps hstep
    exact ⟨hrelayed.kept, .inr ⟨_, rfl, hrelayed⟩⟩
  | externalPacket socket bytes addr =>
    have hrelayed := onExternalPacket_spec h hstep
    exact ⟨hrelayed.kept, .inr ⟨_, rfl, hrelayed⟩⟩
  | lifetimeTimer i =>
    obtain ⟨s₁, hmessage, heq⟩ := Option.map_eq_some_iff.mp hstep
    obtain ⟨rfl, rfl⟩ := Prod.mk.inj heq
    refine ⟨?_, .inl rfl⟩
    rwa [onMessage_table hmessage]
  | dispose i =>
    obtain ⟨s₁, hdelete, heq⟩ := Option.map_eq_some_iff.mp hstep
    obtain ⟨rfl, rfl⟩ := Prod.mk.inj heq
    refine ⟨?_, .inl rfl⟩
    obtain ⟨b, hb, -⟩ := Option.bind_eq_some_iff.mp hdelete
    obtain ⟨s₂, hdelete', hkept⟩ := deleteBinding_spec h hb
    obtain rfl := Option.some.inj (hdelete.symm.trans hdelete')
    exact hkept
  | _ =>
    cases hstep
    exact ⟨h, .inl rfl⟩

theorem kept_empty : (table {}).Kept where
  indexed := .leaf
  owned _ _ _ h := nomatch h
  member _ _ _ h := nomatch h
  named _ _ := ⟨nofun, nofun⟩
  freshConnection _ _ := rfl
  freshBinding _ _ := rfl

theorem kept_of_run {trace : List (RelayServer × Event)} (hrun : Run trace s)
    (hkeeps : ∀ s₁ ev, (s₁, ev) ∈ trace → s₁.KeepsTable ev) : s.table.Kept := by
  induction hrun with
  | start => exact kept_empty
  | @step trace s s' ev out _ _ hstep ih =>
    have hkept := ih fun s₁ ev₁ hmem => hkeeps s₁ ev₁ (List.mem_append_left _ hmem)
    exact (step_spec hkept (hkeeps s ev (by simp)) hstep).1

/-- The map finds under an address pair exactly the connection that has an equal pair. -/
structure Bijective (s : RelayServer) : Prop where
  found : ∀ ap c, s.findConnection ap = some c ↔ ∃ i b conn, s.binding i = some b ∧
    c ∈ b.connections ∧ s.connection c = some conn ∧ conn.binding = i ∧ conn.addrPair.equal ap = true
  entries : ∀ e ∈ s.connections.toList, s.findConnection e.1 = some e.2

theorem bijective_of_kept (h : s.table.Kept) : s.Bijective := by
  refine ⟨fun ap c => ?_, fun e he =>
    h.indexed.isSome_find RelayTable.ranked ((h.indexed.mem_iff e.1 e.2).mp he)⟩
  rw [findConnection_eq_some h]
  constructor
  · rintro ⟨i, v, hc, hrank⟩
    obtain ⟨b, hb, hmem⟩ := binding_of_address h hc
    obtain ⟨conn, hconn, heq⟩ := Option.map_eq_some_iff.mp hc
    obtain ⟨hbinding, rfl⟩ := Prod.mk.inj heq
    exact ⟨i, b, conn, hb, hmem, hconn, hbinding, (SocketAddressPair.equal_iff _ _).mpr hrank⟩
  · rintro ⟨i, b, conn, -, -, hconn, rfl, hequal⟩
    exact ⟨conn.binding, conn.addrPair, address_eq hconn, (SocketAddressPair.equal_iff _ _).mp hequal⟩

/-- **The map has exactly the connections of the bindings**, in every run in which no Send request
names the connection of another binding. -/
theorem connections_bijective (trace : List (RelayServer × Event)) (s : RelayServer)
    (hrun : Run trace s) (hkeeps : ∀ s₁ ev, (s₁, ev) ∈ trace → s₁.KeepsTable ev) :
    s.Bijective ∧ (∀ i, s.possible (.dispose i) = true → (s.step (.dispose i)).isSome = true) ∧
      ∀ ev s' out, s.KeepsTable ev → s.step ev = some (s', out) → .assertFailed ∉ out ∧
        ∀ o ∈ out, ∀ e, o.conn = some e → ∃ ap c i b, ev.addrPair = some ap ∧
          s'.findConnection ap = some c ∧ s'.binding i = some b ∧ c ∈ b.connections ∧
          e ∈ b.connections := by
  have hkept := kept_of_run hrun hkeeps
  refine ⟨bijective_of_kept hkept, fun i hi => ?_, fun ev s' out hev hstep => ?_⟩
  · obtain ⟨b, hb, -⟩ := (Option.any_eq_true _ _).mp hi
    obtain ⟨s', hdelete, -⟩ := deleteBinding_spec hkept hb
    rw [step, hdelete]
    rfl
  · obtain ⟨hkept', rfl | ⟨ap, hap, hrelayed⟩⟩ := step_spec hkept hev hstep
    · exact ⟨List.not_mem_nil, fun o ho => absurd ho List.not_mem_nil⟩
    rcases hrelayed.sent with hanswers | ⟨c, e, i, v, w, hfind, hc, he, hon⟩
    · refine ⟨fun hmem => (hanswers _ hmem 0).1 rfl, fun o ho e he => ?_⟩
      rw [RelayOutput.conn_eq_none (hanswers o ho)] at he
      cases he
    · refine ⟨fun hmem => (hon _ hmem).1 rfl, fun o ho d hd => ?_⟩
      obtain rfl := (hon o ho).2 d hd
      obtain ⟨b, hb, hcb⟩ := binding_of_address hkept' hc
      obtain ⟨b', hb', heb⟩ := binding_of_address hkept' he
      obtain rfl := Option.some.inj (hb.symm.trans hb')
      exact ⟨ap, c, i, b, hap, hfind, hb, hcb, heb⟩

end RelayServer

/-! ## Two clients with one peer -/

def exampleRelayRequest (type : Uint16) (username : List Uint8) (attrs : List StunAttribute) :
    List Uint8 :=
  let attrs := [⟨attrMagicCookie, .byteString turnMagicCookieValue⟩,
    ⟨attrUsername, .byteString username⟩] ++ attrs
  let msg := attrs.foldl (fun msg attr => (msg.addAttribute attr).1)
    ((StunMessage.new .relay).setType type)
  msg.write.getD []

def exampleInternalSocket : RelaySocket := ⟨1, .ofIP (.v4 0x09090909) 3478⟩

def exampleExternalSocket : RelaySocket := ⟨2, .ofIP (.v4 0x09090909) 5000⟩

def exampleRelayPeer : SocketAddress := .ofIP (.v4 0x05050505) 2000

def exampleRelayAllocate (n : ℕ) : RelayServer.Event :=
  .internalPacket exampleInternalSocket
    (exampleRelayRequest stunAllocateRequest [BitVec.ofNat 8 n] []) (.ofIP (.v4 (.ofNat 32 n)) 1000) 0

def exampleRelaySend (n : ℕ) : RelayServer.Event :=
  .internalPacket exampleInternalSocket
    (exampleRelayRequest stunSendRequest [BitVec.ofNat 8 n]
      [⟨attrDestinationAddress, .address exampleRelayPeer⟩, ⟨attrData, .byteString [7]⟩])
    (.ofIP (.v4 (.ofNat 32 n)) 1000) 0

def exampleRelay : RelayServer :=
  { internalSockets := [exampleInternalSocket], externalSockets := [exampleExternalSocket] }

def exampleRelayOne : RelayServer := exampleRelay.after (exampleRelayAllocate 1)

def exampleRelayTwo : RelayServer := exampleRelayOne.after (exampleRelayAllocate 2)

def exampleRelaySent : RelayServer := exampleRelayTwo.after (exampleRelaySend 1)

namespace RelayServer

theorem run_exampleRelaySent : Run [({}, .addInternalSocket exampleInternalSocket),
      ({ internalSockets := [exampleInternalSocket] }, .addExternalSocket exampleExternalSocket),
      (exampleRelay, exampleRelayAllocate 1), (exampleRelayOne, exampleRelayAllocate 2),
      (exampleRelayTwo, exampleRelaySend 1)] exampleRelaySent := by
  have hsockets : Run [({}, .addInternalSocket exampleInternalSocket),
      ({ internalSockets := [exampleInternalSocket] }, .addExternalSocket exampleExternalSocket)]
      exampleRelay := .step (.step .start rfl rfl) (by decide) rfl
  exact .step (.step (.step hsockets (by decide) (step_eq_some (by decide)))
    (by decide) (step_eq_some (by decide)))
    (by decide) (step_eq_some (by decide))

/-- Two clients, of which the first has sent to the peer. -/
theorem connections_bijective_sent : exampleRelaySent.Bijective ∧
    (∀ i, exampleRelaySent.possible (.dispose i) = true →
      (exampleRelaySent.step (.dispose i)).isSome = true) ∧
    ∀ ev s' out, exampleRelaySent.KeepsTable ev → exampleRelaySent.step ev = some (s', out) →
      .assertFailed ∉ out ∧
        ∀ o ∈ out, ∀ e, o.conn = some e → ∃ ap c i b, ev.addrPair = some ap ∧
          s'.findConnection ap = some c ∧ s'.binding i = some b ∧ c ∈ b.connections ∧
          e ∈ b.connections := by
  refine connections_bijective _ _ run_exampleRelaySent fun s₁ ev hmem => ?_
  simp only [List.mem_cons, Prod.mk.injEq, List.not_mem_nil, or_false] at hmem
  rcases hmem with ⟨-, rfl⟩ | ⟨-, rfl⟩ | ⟨rfl, rfl⟩ | ⟨rfl, rfl⟩ | ⟨rfl, rfl⟩
  · trivial
  · trivial
  · intro c i dest hfind
    exact absurd (hfind.symm.trans (by decide : _ = none)) nofun
  · intro c i dest hfind
    exact absurd (hfind.symm.trans (by decide : _ = none)) nofun
  · intro c i dest hfind hsend b socket _ _ hsocket
    obtain rfl := Option.some.inj (hfind.symm.trans (by decide : _ = some 0))
    obtain ⟨rfl, rfl⟩ := Prod.mk.inj (Option.some.inj
      (hsend.symm.trans (by decide : _ = some (0, exampleRelayPeer))))
    obtain rfl := Option.some.inj (hsocket.symm.trans (by decide : _ = some exampleExternalSocket))
    decide

/-- **Two clients that send to one peer**: the `ASSERT` of `AddConnection` fails. -/
theorem peer_of_two_clients :
    (∃ trace, Run trace exampleRelaySent) ∧ exampleRelaySent.possible (exampleRelaySend 2) = true ∧
      exampleRelaySent.step (exampleRelaySend 2) =
        some (exampleRelaySent.after (exampleRelaySend 2), [.assertFailed]) ∧
      ¬(exampleRelaySent.after (exampleRelaySend 2)).Bijective := by
  have hout : exampleRelaySent.outputAt (exampleRelaySend 2) = [.assertFailed] := by decide
  refine ⟨⟨_, run_exampleRelaySent⟩, by decide, ?_, fun h => ?_⟩
  · rw [← hout]
    exact step_eq_some (by decide)
  · let ap : SocketAddressPair := ⟨exampleRelayPeer, exampleExternalSocket.localAddr⟩
    have hfind : (exampleRelaySent.after (exampleRelaySend 2)).findConnection ap = some 3 := by
      decide
    have hmem : ((exampleRelaySent.after (exampleRelaySend 2)).binding 0).map
        RelayServerBinding.connections = some [0, 2] := by decide
    have hconn : (exampleRelaySent.after (exampleRelaySend 2)).connection 2 =
        some ⟨0, ap, 2, false, .ofIP .unspec 0⟩ := by decide
    obtain ⟨b, hb, hconnections⟩ := Option.map_eq_some_iff.mp hmem
    have hfound := (h.found ap 2).mpr ⟨0, b, _, hb, by rw [hconnections]; decide, hconn, rfl,
      by decide⟩
    exact absurd (Option.some.inj (hfind.symm.trans hfound)) (by decide)

end RelayServer

end Libjingle
