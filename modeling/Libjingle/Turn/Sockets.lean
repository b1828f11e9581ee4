import Libjingle.Lib.Index
import Libjingle.Turn.Authorization

/-!
# The sockets of the allocations

Main results: **`sockets_live`**, **`socket_closed`**.
-/

namespace Libjingle

open Lib StunMessage

namespace TurnServer

variable {cfg : TurnConfig} {s s' : TurnServer} {conn : Connection} {msg : StunMessage}
  {sent : List Sent} {p : AllocationId} {a : Allocation} {socket : SocketId} {entry : InternalSocket}

/-- Each allocation in the map is an object, and its socket is there. -/
def Live (s : TurnServer) : Prop :=
  ∀ e ∈ s.allocations.toList, ∃ a, s.heap e.2 = some a ∧ (s.findSocket a.conn.socket).isSome = true

def KeepsSockets (s : TurnServer) : Event → Prop
  | .internalSocketClose socket =>
    ∀ e ∈ s.allocations.toList, ∀ a, s.heap e.2 = some a → a.conn.socket ≠ socket
  | .internalPacket socket addr _ _ =>
    ∀ entry, s.findSocket socket = some entry → ∀ e ∈ s.allocations.toList,
      e.1.Below ⟨addr, entry.remote, entry.proto, socket⟩ ∨
        Connection.Below ⟨addr, entry.remote, entry.proto, socket⟩ e.1
  | _ => True

/-! ## The invariant -/

def IsKey (s : TurnServer) (k : Connection) : Prop := ∃ e ∈ s.allocations.toList, e.1 = k

/-- A connection through a socket: over TCP, the client is the one at the other end. -/
structure Through (k : Connection) (entry : InternalSocket) : Prop where
  dst : k.dst = entry.remote
  proto : k.proto = entry.proto
  src : entry.proto ≠ .udp → k.src = entry.remote

def connectionOf (s : TurnServer) (p : AllocationId) : Option Connection := (s.heap p).map Allocation.conn

/-- The map is an index of the allocations by their connections. -/
structure Housed (s : TurnServer) : Prop extends WellKept s where
  oneWay : Connection.OneWay s.IsKey
  indexed : Tree.Indexed Connection.rank s.IsKey s.allocations s.connectionOf
  socket : ∀ e ∈ s.allocations.toList, ∃ entry, s.findSocket e.1.socket = some entry ∧ Through e.1 entry

theorem Housed.object (h : Housed s) {e : Connection × AllocationId}
    (he : e ∈ s.allocations.toList) : ∃ a, s.heap e.2 = some a := by
  obtain ⟨a, ha, -⟩ := Option.map_eq_some_iff.mp ((h.indexed.mem_iff e.1 e.2).mp he)
  exact ⟨a, ha⟩

theorem Housed.listed (h : Housed s) (ha : s.heap p = some a) : (a.conn, p) ∈ s.allocations.toList := by
  refine (h.indexed.mem_iff _ _).mpr ?_
  rw [connectionOf, ha, Option.map_some]

theorem Housed.live (h : Housed s) : s.Live := by
  intro e he
  obtain ⟨a, ha⟩ := h.object he
  obtain ⟨entry, hentry, -⟩ := h.socket e he
  refine ⟨a, ha, ?_⟩
  rw [h.conn e he a ha, hentry]
  rfl

theorem housed_empty : Housed {} where
  toWellKept := wellKept_empty
  oneWay := fun _ _ h => absurd h fun ⟨_, he, _⟩ => absurd he List.not_mem_nil
  indexed := .leaf
  socket _ h := absurd h List.not_mem_nil

theorem Housed.eq_of_socket (h : Housed s) {e e' : Connection × AllocationId}
    (he : e ∈ s.allocations.toList) (he' : e' ∈ s.allocations.toList)
    (hsocket : e.1.socket = e'.1.socket) (hentry : s.findSocket e.1.socket = some entry)
    (hproto : entry.proto ≠ .udp) : e = e' := by
  obtain ⟨entry₁, hentry₁, hthrough⟩ := h.socket e he
  obtain rfl := Option.some.inj (hentry.symm.trans hentry₁)
  obtain ⟨entry₂, hentry₂, hthrough'⟩ := h.socket e' he'
  rw [← hsocket] at hentry₂
  obtain rfl := Option.some.inj (hentry.symm.trans hentry₂)
  have hrank : e.1.rank = e'.1.rank := by
    rw [Connection.rank, Connection.rank, hthrough.src hproto, hthrough'.src hproto, hthrough.dst,
      hthrough'.dst, hthrough.proto, hthrough'.proto]
  exact h.indexed.sorted.eq_of_rank he he' hrank

/-! ## Steps -/

theorem Housed.sockets (h : Housed s) (sockets : List InternalSocket) (now : ℕ)
    (hsockets : ∀ e ∈ s.allocations.toList, ∀ entry, s.findSocket e.1.socket = some entry →
      sockets.find? (fun x => x.id = e.1.socket) = some entry) :
    Housed { s with serverSockets := sockets, now := now } where
  fresh := h.fresh
  older := h.older
  conn := h.conn
  oneWay := h.oneWay
  indexed := h.indexed
  socket e he := by
    obtain ⟨entry, hentry, hthrough⟩ := h.socket e he
    exact ⟨entry, hsockets e he entry hentry, hthrough⟩

theorem connectionOf_store (x : Option Allocation) :
    (s.store p x).connectionOf = Function.update s.connectionOf p (x.map Allocation.conn) := by
  funext q
  rw [connectionOf, store_heap, Function.update_apply]
  split_ifs <;> rfl

theorem Housed.store (h : Housed s) {a' : Allocation} (ha : s.heap p = some a)
    (hconn : a'.conn = a.conn) : Housed (s.store p (some a')) where
  toWellKept := h.toWellKept.store (h.lt_next ha) fun x hx =>
    ⟨a, ha, by rw [← Option.some.inj hx, hconn]⟩
  oneWay := h.oneWay
  indexed := by
    have hsame : (s.store p (some a')).connectionOf = s.connectionOf := by
      rw [connectionOf_store, Option.map_some, hconn, Function.update_eq_self_iff, connectionOf, ha,
        Option.map_some]
    rw [hsame]
    exact h.indexed
  socket := h.socket

theorem Housed.create (h : Housed s) (hfind : s.findAllocation conn = none) (hconn : a.conn = conn)
    (hbelow : ∀ e ∈ s.allocations.toList, e.1.Below conn ∨ conn.Below e.1)
    (hentry : s.findSocket conn.socket = some entry) (hthrough : Through conn entry) :
    Housed (s.create conn a) := by
  -- the keys, and the new one
  let K : Connection → Prop := fun k => s.IsKey k ∨ k = conn
  have hrefl : conn.Below conn := (Connection.below_iff conn conn).mpr ⟨le_rfl, le_rfl, le_rfl⟩
  have honeWay : Connection.OneWay K := by
    rintro k k' (hk | rfl) (hk' | rfl)
    · exact h.oneWay k k' hk hk'
    · obtain ⟨e, he, rfl⟩ := hk
      exact hbelow e he
    · obtain ⟨e, he, rfl⟩ := hk'
      exact (hbelow e he).symm
    · exact .inl hrefl
  have hindexed : Tree.Indexed Connection.rank K s.allocations s.connectionOf :=
    ⟨⟨fun e he => .inl ⟨e, he, rfl⟩, h.indexed.sorted.pairwise⟩, h.indexed.mem_iff⟩
  have hnone : s.connectionOf s.next = none := by
    rw [connectionOf, h.fresh _ (Nat.le_refl _), Option.map_none]
  have hset := hindexed.set honeWay.ranked (.inr rfl) hfind hnone
  have hkeys : ∀ k, (s.create conn a).IsKey k → K k := by
    rintro k ⟨e, he, rfl⟩
    exact hset.sorted.keys e he
  refine ⟨h.toWellKept.create hfind hconn, fun k k' hk hk' => honeWay k k' (hkeys k hk) (hkeys k' hk'),
    ⟨⟨fun e he => ⟨e, he, rfl⟩, hset.sorted.pairwise⟩, ?_⟩, fun e he => ?_⟩
  · have hupdate : (s.create conn a).connectionOf =
        Function.update s.connectionOf s.next (some conn) := by
      rw [← hconn]
      exact connectionOf_store (some a)
    rw [hupdate]
    exact hset.mem_iff
  · obtain ⟨k, x⟩ := e
    rcases eq_or_ne x s.next with rfl | hx
    · obtain rfl : conn = k := by
        simpa only [Function.update_self, Option.some.injEq] using (hset.mem_iff k s.next).mp he
      exact ⟨entry, hentry, hthrough⟩
    · refine h.socket (k, x) ((h.indexed.mem_iff k x).mpr ?_)
      simpa only [Function.update_of_ne hx] using (hset.mem_iff k x).mp he

theorem Housed.destroyed (h : Housed s) (ha : s.heap p = some a)
    (hdestroyed : s.onAllocationDestroyed a = some s') : Housed (s'.store p none) := by
  obtain ⟨entry, hentry, rfl⟩ := onAllocationDestroyed_eq_some hdestroyed
  have hmem := h.listed ha
  have hkey : s.connectionOf p = some a.conn := (h.indexed.mem_iff _ _).mp hmem
  have herase := h.indexed.erase h.oneWay.ranked hkey
  have hsub : ∀ e ∈ (s.allocations.erase Connection.less a.conn).toList,
      e ∈ s.allocations.toList ∧ e.1.rank ≠ a.conn.rank :=
    fun e => (Tree.mem_erase h.oneWay.ranked ⟨_, hmem, rfl⟩ h.indexed.sorted).mp
  refine ⟨(h.toWellKept.erase _ _).store (h.lt_next ha) fun x hx => (nomatch hx), ?_,
    ⟨⟨fun e he => ⟨e, he, rfl⟩, herase.sorted.pairwise⟩, ?_⟩, ?_⟩
  · rintro k k' ⟨e, he, rfl⟩ ⟨e', he', rfl⟩
    exact h.oneWay _ _ ⟨e, (hsub e he).1, rfl⟩ ⟨e', (hsub e' he').1, rfl⟩
  · rw [connectionOf_store]
    exact herase.mem_iff
  · intro e he
    obtain ⟨he, hrank⟩ := hsub e he
    obtain ⟨entry', hentry', hthrough⟩ := h.socket e he
    refine ⟨entry', ?_, hthrough⟩
    have hother : entry.proto ≠ .udp → e.1.socket ≠ a.conn.socket := fun hproto heq =>
      hrank (congrArg (fun e => e.1.rank) (h.eq_of_socket hmem he heq.symm hentry hproto)).symm
    unfold findSocket at hentry' ⊢
    rw [store_serverSockets]
    dsimp only
    split_ifs with hproto
    · rw [destroyInternalSocket, List.find?_filter, ← hentry']
      congr 1
      funext x
      have hother' := hother hproto
      grind
    · exact hentry'

/-- **An event keeps the sockets of all allocations** where it spares them. -/
theorem Housed.step {ev : Event} (h : Housed s) (hpossible : s.possible ev = true)
    (hkeeps : s.KeepsSockets ev) (hstep : s.step cfg ev = some (s', sent)) : Housed s' := by
  cases ev with
  | internalPacket socket addr packet external =>
    rcases onInternalPacket_effect hstep with rfl | ⟨entry, hentry, heffect⟩
    · exact h
    · have hthrough : Through ⟨addr, entry.remote, entry.proto, socket⟩ entry := by
        refine ⟨rfl, rfl, fun hproto => ?_⟩
        simp only [possible, hentry, Option.any_some, Bool.or_eq_true, decide_eq_true_eq] at hpossible
        exact hpossible.resolve_left hproto
      cases heffect with
      | nothing => exact h
      | @changed msg nonce p a a' _ _ _ _ ha ha' =>
        refine h.store ha ?_
        rcases ha' with rfl | ⟨-, hhandled⟩
        · rfl
        · exact hhandled.conn
      | created _ _ _ hfind hnew =>
        exact h.create hfind hnew.1 (hkeeps entry hentry) hentry hthrough
  | externalPacket p data addr id =>
    obtain ⟨a, -, hstep⟩ := Option.bind_eq_some_iff.mp hstep
    cases hstep
    exact h
  | addInternalSocket entry =>
    cases hstep
    refine h.sockets _ _ fun e he entry' hentry' => ?_
    rw [List.find?_append, show s.serverSockets.find? _ = some entry' from hentry']
    rfl
  | internalSocketClose socket =>
    cases hstep
    refine h.sockets _ _ fun e he entry' hentry' => ?_
    obtain ⟨a, ha⟩ := h.object he
    have hne : e.1.socket ≠ socket := by
      rw [← h.conn e he a ha]
      exact hkeeps e he a ha
    rw [← hentry', List.find?_filter]
    unfold findSocket
    congr 1
    funext x
    grind
  | allocationTimeout p =>
    obtain ⟨a, ha, hstep⟩ := Option.bind_eq_some_iff.mp hstep
    obtain ⟨s₁, hdestroyed, hstep⟩ := Option.bind_eq_some_iff.mp hstep
    cases hstep
    exact h.destroyed ha hdestroyed
  | permissionTimeout p perm =>
    obtain ⟨a, ha, hstep⟩ := Option.bind_eq_some_iff.mp hstep
    cases hstep
    exact h.store ha rfl
  | channelTimeout p channel =>
    obtain ⟨a, ha, hstep⟩ := Option.bind_eq_some_iff.mp hstep
    cases hstep
    exact h.store ha rfl
  | tick ms =>
    cases hstep
    exact h.sockets _ _ fun e he entry hentry => hentry

/-! ## Runs -/

/-- **The sockets of the allocations are there**, in every run in which none is closed while in use
and connections compare one way. -/
theorem sockets_live (cfg : TurnConfig) (trace : List (TurnServer × Event × List Sent))
    (s' : TurnServer) (hrun : Run cfg trace s')
    (hkeeps : ∀ s ev sent, (s, ev, sent) ∈ trace → s.KeepsSockets ev) :
    s'.Live ∧ ∀ p a, s'.heap p = some a →
      (a.conn, p) ∈ s'.allocations.toList ∧ (s'.onAllocationDestroyed a).isSome = true := by
  have hhoused : s'.Housed := by
    induction hrun with
    | start => exact housed_empty
    | @step trace s s' ev sent _ hpossible hstep ih =>
      refine Housed.step (ih fun s₁ ev₁ sent₁ h => ?_) hpossible (hkeeps s ev sent (by simp)) hstep
      exact hkeeps s₁ ev₁ sent₁ (List.mem_append_left _ h)
  refine ⟨hhoused.live, fun p a ha => ?_⟩
  have hmem := hhoused.listed ha
  obtain ⟨entry, hentry, -⟩ := hhoused.socket _ hmem
  refine ⟨hmem, ?_⟩
  unfold onAllocationDestroyed
  rw [hentry]
  rfl

def exampleSecondEvent : Event :=
  .internalPacket 0 (.ofIP (.v4 0x01010102) 1000) (exampleAllocate (text "u")) (some (.ofIP (.v4 0x09090909) 5001))

def exampleTwoClients : TurnServer := exampleServer.after exampleConfig exampleSecondEvent

theorem sockets_live_two : exampleTwoClients.allocations.toList.length = 2 ∧ exampleTwoClients.Live ∧
    ∀ p a, exampleTwoClients.heap p = some a →
      (a.conn, p) ∈ exampleTwoClients.allocations.toList ∧
        (exampleTwoClients.onAllocationDestroyed a).isSome = true := by
  have hfirst : exampleServer.allocations.toList =
      [(⟨exampleClient, exampleSocket.remote, exampleSocket.proto, 0⟩, 0)] := by decide +kernel
  refine ⟨by decide +kernel, sockets_live exampleConfig _ _ (.step (.step run_exampleFresh (by decide)
    (step_eq_some (by decide))) (by decide) (step_eq_some (by decide +kernel))) fun s ev sent h => ?_⟩
  simp only [List.cons_append, List.nil_append, List.mem_cons, Prod.mk.injEq,
    List.not_mem_nil, or_false] at h
  rcases h with ⟨-, rfl, -⟩ | ⟨rfl, rfl, -⟩ | ⟨rfl, rfl, -⟩
  · trivial
  · intro entry _ e he
    cases he
  · intro entry hentry e he
    have hsocket : exampleServer.findSocket 0 = some exampleSocket := by decide +kernel
    obtain rfl := Option.some.inj (hsocket.symm.trans hentry)
    have he : e ∈ exampleServer.allocations.toList := he
    rw [hfirst, List.mem_singleton] at he
    rw [he]
    exact .inl ⟨by decide +kernel, by decide +kernel, by decide +kernel⟩

end TurnServer

def exampleTcpSocket : InternalSocket := ⟨1, .tcp, exampleClient⟩

def exampleTcpFresh : TurnServer := { serverSockets := [exampleTcpSocket] }

def exampleTcpServer : TurnServer :=
  exampleTcpFresh.after exampleConfig
    (.internalPacket 1 exampleClient (exampleAllocate (text "u")) (some (.ofIP (.v4 0x09090909) 5000)))

def exampleClosed : TurnServer := exampleTcpServer.after exampleConfig (.internalSocketClose 1)

/-- **The allocation of a client that closes its socket stays in the map.** -/
theorem TurnServer.socket_closed :
    (∃ trace, Run exampleConfig trace exampleClosed) ∧ ¬exampleClosed.Live ∧
      ∃ a, exampleClosed.heap 0 = some a ∧ exampleClosed.onAllocationDestroyed a = none := by
  have hfresh : Run exampleConfig [({}, .addInternalSocket exampleTcpSocket, [])] exampleTcpFresh :=
    .step .start rfl rfl
  have hclosed : exampleTcpServer.possible (.internalSocketClose 1) = true := by decide +kernel
  have hheap : (exampleClosed.heap 0).map (fun a => (exampleClosed.findSocket a.conn.socket).isSome) =
      some false := by decide +kernel
  obtain ⟨a, ha, hsocket⟩ := Option.map_eq_some_iff.mp hheap
  refine ⟨⟨_, .step (.step hfresh (by decide +kernel) (step_eq_some (by decide +kernel))) hclosed
    (step_eq_some rfl)⟩, fun hlive => ?_, a, ha, ?_⟩
  · have hmem : ∃ e ∈ exampleClosed.allocations.toList, e.2 = 0 := by decide +kernel
    obtain ⟨e, he, hzero⟩ := hmem
    obtain ⟨a', ha', hsome⟩ := hlive e he
    rw [hzero, ha] at ha'
    rw [← Option.some.inj ha', hsocket] at hsome
    cases hsome
  · unfold onAllocationDestroyed
    rw [Option.isSome_eq_false_iff, Option.isNone_iff_eq_none] at hsocket
    rw [hsocket]
    rfl

end Libjingle
