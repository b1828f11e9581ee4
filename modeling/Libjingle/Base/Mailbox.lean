import Mathlib.Data.List.Sort
import Mathlib.Data.Prod.Lex
import Libjingle.Lib.Run
import Libjingle.Base.MessageQueue

/-!
# What becomes of the messages of a `MessageQueue`

Main results: **`fetched_pass`**, **`messageQueue_exact`**.
-/

variable {d : DelayedMessage} {ms : List Message} {m : Message} {g : Getting} {peeking : Bool}

namespace Libjingle

open Lib

/-! ## The schedule -/

def Message.key (m : Message) : ℕ ×ₗ ℕ := toLex (m.label.trigger.getD 0, m.label.serial)

def Message.delayed (m : Message) : Bool := m.label.trigger.isSome

namespace MessageQueue

def waiting (q : MessageQueue) : List Message := q.dmsgq.toList.map (·.msg)

def ready (q : MessageQueue) : List Message := q.msgPeek.toList ++ q.msgq

def later (q : MessageQueue) : List Message :=
  q.waiting.insertionSort fun a b => a.key ≤ b.key

/-- The pending messages, in the order of delivery. -/
def schedule (q : MessageQueue) : List Message := q.ready ++ q.later

theorem perm_later (q : MessageQueue) : q.later.Perm q.waiting := List.perm_insertionSort _ _

theorem pairwise_later (q : MessageQueue) : q.later.Pairwise fun a b => a.key ≤ b.key := by
  have : IsTrans Message fun a b => a.key ≤ b.key := ⟨fun _ _ _ => le_trans⟩
  have : Std.Total fun a b : Message => a.key ≤ b.key := ⟨fun a b => le_total a.key b.key⟩
  exact List.pairwise_insertionSort _ _

theorem later_eq {q : MessageQueue} (hperm : q.waiting.Perm ms)
    (hsorted : ms.Pairwise fun a b => a.key < b.key) : q.later = ms := by
  have hp : q.later.Perm ms := q.perm_later.trans hperm
  have hinj : (ms.map Message.key).Nodup := List.pairwise_map.mpr (hsorted.imp ne_of_lt)
  refine List.Perm.eq_of_pairwise (fun a b ha hb hab hba => ?_) q.pairwise_later
    (hsorted.imp le_of_lt) hp
  exact List.inj_on_of_nodup_map hinj (hp.mem_iff.mp ha) hb (le_antisymm hab hba)

theorem pairwise_lt_of_nodup (h : ms.Pairwise fun a b => a.key ≤ b.key)
    (hnodup : (ms.map Message.key).Nodup) : ms.Pairwise fun a b => a.key < b.key :=
  (h.and (List.pairwise_map.mp hnodup)).imp fun hab => lt_of_le_of_ne hab.1 hab.2

/-! ## The delayed messages -/

/-- What holds of the delayed messages of a queue at the time `now`. -/
structure Delays (q : MessageQueue) (now : ℕ) : Prop where
  heap : Heap.IsHeap DelayedMessage.lt q.dmsgq
  trigger : ∀ d ∈ q.dmsgq, d.msg.label.trigger = some d.msTrigger.toNat
  near : ∀ d ∈ q.dmsgq, d.msTrigger.toNat < now + 2 ^ 31
  fresh : ∀ d ∈ q.dmsgq, d.num.toNat < q.dmsgqNextNum.toNat
  ordered : ∀ d ∈ q.dmsgq, ∀ e ∈ q.dmsgq,
    d.num.toNat ≤ e.num.toNat ↔ d.msg.label.serial ≤ e.msg.label.serial

theorem mem_waiting {q : MessageQueue} : m ∈ q.waiting ↔ ∃ d ∈ q.dmsgq, d.msg = m := by
  simp [waiting]

theorem mem_later {q : MessageQueue} : m ∈ q.later ↔ ∃ d ∈ q.dmsgq, d.msg = m := by
  rw [q.perm_later.mem_iff, mem_waiting]

namespace Delays

variable {q q' : MessageQueue} {now : ℕ}

theorem key_eq (h : q.Delays now) (hd : d ∈ q.dmsgq) : d.msg.key = toLex (d.msTrigger.toNat, d.msg.label.serial) := by
  rw [Message.key, h.trigger d hd, Option.getD_some]

theorem delayed (h : q.Delays now) (hm : m ∈ q.later) : m.delayed = true := by
  obtain ⟨d, hd, rfl⟩ := mem_later.mp hm
  rw [Message.delayed, h.trigger d hd, Option.isSome_some]

theorem key_le (h : q.Delays now) {e : DelayedMessage} (hd : d ∈ q.dmsgq) (he : e ∈ q.dmsgq)
    (hlt : DelayedMessage.lt d e = false) : d.msg.key ≤ e.msg.key := by
  have hnum := h.ordered d hd e he
  rw [h.key_eq hd, h.key_eq he, Prod.Lex.toLex_le_toLex]
  simp only [DelayedMessage.lt, BitVec.lt_def, Bool.or_eq_false_iff, Bool.and_eq_false_iff,
    decide_eq_false_iff_not, beq_eq_false_iff_ne, ne_eq, ← BitVec.toNat_inj] at hlt
  omega

theorem top_le (h : q.Delays now) {top : DelayedMessage} (htop : q.dmsgq[0]? = some top)
    (hd : d ∈ q.dmsgq) : top.msg.key ≤ d.msg.key := by
  obtain ⟨i, hi, rfl⟩ := Array.mem_iff_getElem.mp hd
  obtain ⟨hpos, rfl⟩ := Array.getElem?_eq_some_iff.mp htop
  have hfirst := h.heap.top DelayedMessage.strictWeak_lt i
  rw [Heap.ltAt_eq hpos hi] at hfirst
  exact h.key_le (Array.getElem_mem hpos) (Array.getElem_mem hi) hfirst

theorem top_trigger_le (h : q.Delays now) {top : DelayedMessage} (htop : q.dmsgq[0]? = some top)
    (hd : d ∈ q.dmsgq) : top.msTrigger.toNat ≤ d.msTrigger.toNat := by
  have hkey := h.top_le htop hd
  rw [h.key_eq (Array.mem_of_getElem? htop), h.key_eq hd, Prod.Lex.toLex_le_toLex] at hkey
  omega

theorem subset (h : q.Delays now) (hheap : Heap.IsHeap DelayedMessage.lt q'.dmsgq)
    (hsub : ∀ d ∈ q'.dmsgq, d ∈ q.dmsgq) (hnum : q'.dmsgqNextNum = q.dmsgqNextNum) : q'.Delays now where
  heap := hheap
  trigger d hd := h.trigger d (hsub d hd)
  near d hd := h.near d (hsub d hd)
  fresh d hd := hnum ▸ h.fresh d (hsub d hd)
  ordered d hd e he := h.ordered d (hsub d hd) e (hsub e he)

theorem elapse (h : q.Delays now) {now' : ℕ} (hnow : now ≤ now') : q.Delays now' :=
  { h with near := fun d hd => (h.near d hd).trans_le (by omega) }

end Delays

/-! ### One move -/

section Move

variable {q : MessageQueue} {now : ℕ} {top : DelayedMessage}

theorem waiting_moveTop (htop : q.dmsgq[0]? = some top) : q.waiting.Perm (top.msg :: (q.moveTop top).waiting) := by
  obtain ⟨hpos, rfl⟩ := Array.getElem?_eq_some_iff.mp htop
  exact (Heap.pop_perm hpos).map (·.msg)

theorem mem_moveTop (htop : q.dmsgq[0]? = some top) (hd : d ∈ (q.moveTop top).dmsgq) : d ∈ q.dmsgq := by
  obtain ⟨hpos, rfl⟩ := Array.getElem?_eq_some_iff.mp htop
  rw [← Array.mem_toList_iff] at hd ⊢
  exact (Heap.pop_perm hpos).symm.subset (List.mem_cons_of_mem _ hd)

theorem Delays.moveTop (h : q.Delays now) (htop : q.dmsgq[0]? = some top) : (q.moveTop top).Delays now :=
  h.subset (Heap.isHeap_pop DelayedMessage.strictWeak_lt h.heap) (fun _ => mem_moveTop htop) rfl

theorem later_moveTop (h : q.Delays now) (hnodup : (q.later.map Message.key).Nodup)
    (htop : q.dmsgq[0]? = some top) : q.later = top.msg :: (q.moveTop top).later := by
  have hperm : q.waiting.Perm (top.msg :: (q.moveTop top).later) :=
    (waiting_moveTop htop).trans ((q.moveTop top).perm_later.symm.cons _)
  refine later_eq hperm (pairwise_lt_of_nodup ?_ ?_)
  · refine List.pairwise_cons.mpr ⟨fun m hm => ?_, pairwise_later _⟩
    obtain ⟨d, hd, rfl⟩ := mem_later.mp hm
    exact h.top_le htop (mem_moveTop htop hd)
  · exact ((q.perm_later.trans hperm).map Message.key).nodup_iff.mp hnodup

theorem schedule_moveTop (h : q.Delays now) (hnodup : (q.later.map Message.key).Nodup)
    (htop : q.dmsgq[0]? = some top) : (q.moveTop top).schedule = q.schedule := by
  simp only [schedule, later_moveTop h hnodup htop, ready, MessageQueue.moveTop, List.append_assoc,
    List.cons_append, List.nil_append]

end Move

end MessageQueue

/-! ## Runs -/

/-- A queue in use, at the time `now` in milliseconds. `blocked` is the `Get` that waits, and
whether `Peek` called it. -/
structure MessageRun where
  now : ℕ
  queue : MessageQueue := {}
  blocked : Option (Bool × Getting) := none
  posted : List Message := []
  delivered : List Message := []
  removed : List Message := []

/-- What a client of the queue does, and the passing of time. -/
inductive MessageEvent
  | post (phandler : Option ℕ) (id : Uint32) (pdata : Option ℕ) (timeSensitive : Bool)
  | postDelayed (cmsDelay : ℤ) (phandler : Option ℕ) (id : Uint32) (pdata : Option ℕ)
  | clear (phandler : Option ℕ) (id : Uint32)
  | get (cmsWait : ℤ) (processIo : Bool)
  | peek (cmsWait : ℤ)
  | waited (ok : Bool)
  | elapse (ms : ℕ)

namespace MessageRun

def label (c : MessageRun) (trigger : Option ℕ) : Label := ⟨c.posted.length, trigger⟩

def finish (c : MessageRun) (peeking : Bool) : GetOutcome × MessageQueue → MessageRun
  | (.message m, q) =>
    if peeking then { c with queue := { q with msgPeek := some m }, blocked := none }
    else { c with queue := q, blocked := none, delivered := c.delivered ++ [m] }
  | (.waiting g, q) => { c with queue := q, blocked := some (peeking, g) }
  | (.nothing, q) => { c with queue := q, blocked := none }

def step (c : MessageRun) : MessageEvent → MessageRun
  | .post phandler id pdata timeSensitive =>
    let now := timeReading c.now
    { c with
      queue := c.queue.post now phandler id pdata timeSensitive (c.label none)
      posted := c.posted ++
        [MessageQueue.postedMessage now phandler id pdata timeSensitive (c.label none)] }
  | .postDelayed cmsDelay phandler id pdata =>
    let label := c.label (some (c.now + cmsDelay.toNat))
    { c with
      queue := c.queue.postDelayed (timeReading c.now) cmsDelay phandler id pdata label
      posted := c.posted ++ [⟨phandler, id, pdata, 0, label⟩] }
  | .clear phandler id =>
    let r := c.queue.clear phandler id
    { c with queue := r.2, removed := c.removed ++ r.1 }
  | .get cmsWait processIo => c.finish false (c.queue.get (timeReading c.now) cmsWait processIo)
  | .peek cmsWait =>
    if c.queue.msgPeek.isSome then c
    else c.finish true (c.queue.get (timeReading c.now) cmsWait true)
  | .waited ok =>
    match c.blocked with
    | none => c
    | some (peeking, g) => c.finish peeking (c.queue.waited g ok (timeReading c.now))
  | .elapse ms => { c with now := c.now + ms }

def pending (c : MessageRun) : List Message :=
  c.queue.msgPeek.toList ++ c.queue.msgq ++ c.queue.waiting

def done (c : MessageRun) : List Message := c.delivered ++ c.queue.ready

def history (c : MessageRun) : List Message := c.done ++ c.queue.later

def Legal (c : MessageRun) : MessageEvent → Prop
  | .post _ id _ _ => id ≠ mqidDispose
  | .postDelayed cmsDelay _ id _ =>
    id ≠ mqidDispose ∧ 0 ≤ cmsDelay ∧ cmsDelay < 2 ^ 31 ∧ c.now + cmsDelay.toNat < 2 ^ 32 ∧
      c.posted.countP (·.delayed) + 1 < 2 ^ 32
  | .get _ _ => c.blocked = none
  | .peek _ => c.blocked = none
  | _ => True

/-- Messages in order: by the time at which they are due, and as posted. -/
structure InOrder (ms : List Message) : Prop where
  posts : (ms.filter (!·.delayed)).Pairwise fun a b => a.label.serial < b.label.serial
  delays : (ms.filter (·.delayed)).Pairwise fun a b => a.key < b.key

/-- No message is lost or duplicated, and the labels tell the order of posting. -/
structure Sound (c : MessageRun) : Prop where
  running : c.queue.fStop = false
  serials : c.posted.map (·.label.serial) = List.range c.posted.length
  kept : (c.history ++ c.removed).Perm c.posted
  proper : ∀ m ∈ c.posted, m.messageId ≠ mqidDispose
  inOrder : InOrder c.history
  due : ∀ m ∈ c.done, ∀ t, m.label.trigger = some t → t ≤ c.now
  delays : c.queue.Delays c.now
  next : c.queue.dmsgqNextNum.toNat = c.posted.countP (·.delayed)
  held : c.blocked ≠ none → c.queue.msgPeek = none

namespace Sound

variable {c : MessageRun}

theorem nodup_posted (h : c.Sound) : c.posted.Nodup :=
  List.Nodup.of_map (·.label.serial) (h.serials ▸ List.nodup_range)

theorem serial_lt (h : c.Sound) (hm : m ∈ c.history) : m.label.serial < c.posted.length := by
  have hposted : m ∈ c.posted := h.kept.subset (List.mem_append_left _ hm)
  have hserial : m.label.serial ∈ c.posted.map (·.label.serial) := List.mem_map_of_mem hposted
  rw [h.serials] at hserial
  exact List.mem_range.mp hserial

theorem nodup_later (h : c.Sound) : (c.queue.later.map Message.key).Nodup := by
  have hsub : c.queue.later.Sublist c.history := List.sublist_append_right _ _
  have hfilter := hsub.filter (·.delayed)
  rw [List.filter_eq_self.mpr fun m hm => h.delays.delayed hm] at hfilter
  exact List.pairwise_map.mpr ((h.inOrder.delays.sublist hfilter).imp ne_of_lt)

end Sound

/-! ### Posting -/

theorem InOrder.sublist {ms' : List Message} (h : InOrder ms) (hsub : ms'.Sublist ms) : InOrder ms' :=
  ⟨h.posts.sublist (hsub.filter _), h.delays.sublist (hsub.filter _)⟩

theorem inOrder_append {later : List Message} (hlater : ∀ m ∈ later, m.delayed = true) :
    InOrder (ms ++ later) ↔
      (ms.filter (!·.delayed)).Pairwise (fun a b => a.label.serial < b.label.serial) ∧
        (ms.filter (·.delayed) ++ later).Pairwise fun a b => a.key < b.key := by
  have hnone : later.filter (!·.delayed) = [] :=
    List.filter_eq_nil_iff.mpr fun m hm => by simp [hlater m hm]
  have hall : later.filter (·.delayed) = later := List.filter_eq_self.mpr hlater
  constructor
  · intro h
    have hposts := h.posts
    have hdelays := h.delays
    rw [List.filter_append, hnone, List.append_nil] at hposts
    rw [List.filter_append, hall] at hdelays
    exact ⟨hposts, hdelays⟩
  · rintro ⟨hposts, hdelays⟩
    constructor
    · rwa [List.filter_append, hnone, List.append_nil]
    · rwa [List.filter_append, hall]

/-- A message goes to the end of `msgq_`. -/
def receive (c : MessageRun) (m : Message) : MessageRun :=
  { c with queue := { c.queue with msgq := c.queue.msgq ++ [m] }, posted := c.posted ++ [m] }

/-- A message goes into `dmsgq_`. -/
def receiveDelayed (c : MessageRun) (d : DelayedMessage) : MessageRun :=
  { c with
    queue := { c.queue with
      dmsgq := Heap.push DelayedMessage.lt c.queue.dmsgq d
      dmsgqNextNum := c.queue.dmsgqNextNum + 1 }
    posted := c.posted ++ [d.msg] }

section Posting

variable {c : MessageRun} {m : Message} {d : DelayedMessage}

theorem done_receive : (c.receive m).done = c.done ++ [m] := by
  simp only [done, receive, MessageQueue.ready, List.append_assoc]

theorem history_receive : (c.receive m).history = c.done ++ [m] ++ c.queue.later := by
  rw [history, done_receive]
  rfl

theorem waiting_receiveDelayed : (c.receiveDelayed d).queue.waiting.Perm (d.msg :: c.queue.later) := by
  have hpush : (Heap.push DelayedMessage.lt c.queue.dmsgq d).toList.Perm (c.queue.dmsgq.toList ++ [d]) := by
    rw [← Array.toList_push]
    exact (Heap.push_perm _ _).toList
  have hmap := (hpush.map (·.msg)).trans (List.perm_append_comm.map _)
  rw [List.map_append] at hmap
  exact hmap.trans (c.queue.perm_later.symm.cons d.msg)

theorem mem_receiveDelayed {e : DelayedMessage} (he : e ∈ (c.receiveDelayed d).queue.dmsgq) :
    e ∈ c.queue.dmsgq ∨ e = d := by
  have hpush : e ∈ c.queue.dmsgq.push d := (Heap.push_perm _ _).mem_iff.mp he
  exact Array.mem_push.mp hpush

namespace Sound

theorem serials_append (h : c.Sound) (hm : m.label.serial = c.posted.length) :
    (c.posted ++ [m]).map (·.label.serial) = List.range (c.posted ++ [m]).length := by
  rw [List.map_append, h.serials, List.map_singleton, hm, List.length_append, List.length_singleton,
    List.range_succ]

theorem proper_append (h : c.Sound) (hm : m.messageId ≠ mqidDispose) :
    ∀ m' ∈ c.posted ++ [m], m'.messageId ≠ mqidDispose := by
  intro m' hm'
  rcases List.mem_append.mp hm' with hold | hnew
  · exact h.proper m' hold
  · rwa [List.mem_singleton.mp hnew]

theorem kept_append (h : c.Sound) (hms : ms.Perm (m :: c.history)) : (ms ++ c.removed).Perm (c.posted ++ [m]) :=
  (hms.append_right c.removed).trans ((h.kept.cons m).trans (List.perm_append_singleton m c.posted).symm)

theorem receive (h : c.Sound) (hserial : m.label.serial = c.posted.length)
    (htrigger : m.label.trigger = none) (hid : m.messageId ≠ mqidDispose) : (c.receive m).Sound := by
  have hdelayed : m.delayed = false := by rw [Message.delayed, htrigger, Option.isSome_none]
  have hlater (m' : Message) (hm' : m' ∈ c.queue.later) : m'.delayed = true := h.delays.delayed hm'
  obtain ⟨hposts, hdelays⟩ := (inOrder_append hlater).mp h.inOrder
  refine ⟨h.running, h.serials_append hserial, ?_, h.proper_append hid, ?_, ?_, ?_, ?_, h.held⟩
  · rw [history_receive]
    refine h.kept_append ?_
    rw [List.append_assoc, List.singleton_append]
    exact List.perm_middle
  · rw [history_receive, inOrder_append hlater]
    constructor
    · rw [List.filter_append, List.pairwise_append]
      refine ⟨hposts, by simp [hdelayed], fun a ha b hb => ?_⟩
      obtain rfl := List.mem_singleton.mp (List.mem_of_mem_filter hb)
      rw [hserial]
      exact h.serial_lt (List.mem_append_left _ (List.mem_of_mem_filter ha))
    · rw [List.filter_append, List.filter_cons_of_neg (by simp [hdelayed]), List.filter_nil,
        List.append_nil]
      exact hdelays
  · intro m' hm' t ht
    rw [done_receive] at hm'
    rcases List.mem_append.mp hm' with hold | hnew
    · exact h.due m' hold t ht
    · rw [List.mem_singleton.mp hnew, htrigger] at ht
      cases ht
  · exact ⟨h.delays.heap, h.delays.trigger, h.delays.near, h.delays.fresh, h.delays.ordered⟩
  · show c.queue.dmsgqNextNum.toNat = (c.posted ++ [m]).countP (·.delayed)
    rw [List.countP_append, List.countP_singleton, hdelayed, h.next]
    rfl

theorem next_succ (h : c.Sound) (hcount : c.posted.countP (·.delayed) + 1 < 2 ^ 32) :
    (c.queue.dmsgqNextNum + 1).toNat = c.posted.countP (·.delayed) + 1 := by
  have hone : (1 : Uint32).toNat = 1 := rfl
  rw [BitVec.toNat_add, hone, h.next, Nat.mod_eq_of_lt hcount]

theorem delays_receiveDelayed (h : c.Sound) (hserial : d.msg.label.serial = c.posted.length)
    (htrigger : d.msg.label.trigger = some d.msTrigger.toNat) (hnum : d.num = c.queue.dmsgqNextNum)
    (hnear : d.msTrigger.toNat < c.now + 2 ^ 31) (hcount : c.posted.countP (·.delayed) + 1 < 2 ^ 32) :
    (c.receiveDelayed d).queue.Delays c.now := by
  have hlt (e : DelayedMessage) (he : e ∈ c.queue.dmsgq) :
      e.num.toNat < d.num.toNat ∧ e.msg.label.serial < d.msg.label.serial := by
    rw [hnum, hserial]
    have hlater : e.msg ∈ c.queue.later := MessageQueue.mem_later.mpr ⟨e, he, rfl⟩
    exact ⟨h.delays.fresh e he, h.serial_lt (List.mem_append_right _ hlater)⟩
  refine ⟨Heap.isHeap_push DelayedMessage.strictWeak_lt h.delays.heap d, ?_, ?_, ?_, ?_⟩
  · intro e he
    rcases mem_receiveDelayed he with hold | rfl
    · exact h.delays.trigger e hold
    · exact htrigger
  · intro e he
    rcases mem_receiveDelayed he with hold | rfl
    · exact h.delays.near e hold
    · exact hnear
  · intro e he
    show e.num.toNat < (c.queue.dmsgqNextNum + 1).toNat
    rw [h.next_succ hcount, ← h.next]
    rcases mem_receiveDelayed he with hold | rfl
    · exact Nat.lt_succ_of_lt (h.delays.fresh e hold)
    · rw [hnum]
      exact Nat.lt_succ_self _
  · intro e he e' he'
    rcases mem_receiveDelayed he with hold | rfl <;> rcases mem_receiveDelayed he' with hold' | rfl
    · exact h.delays.ordered e hold e' hold'
    · have := hlt e hold
      omega
    · have := hlt e' hold'
      omega
    · simp

theorem receiveDelayed (h : c.Sound) (hserial : d.msg.label.serial = c.posted.length)
    (htrigger : d.msg.label.trigger = some d.msTrigger.toNat) (hnum : d.num = c.queue.dmsgqNextNum)
    (hid : d.msg.messageId ≠ mqidDispose) (hnow : c.now ≤ d.msTrigger.toNat)
    (hnear : d.msTrigger.toNat < c.now + 2 ^ 31) (hcount : c.posted.countP (·.delayed) + 1 < 2 ^ 32) :
    (c.receiveDelayed d).Sound := by
  have hdelays := h.delays_receiveDelayed hserial htrigger hnum hnear hcount
  have hdelayed : d.msg.delayed = true := by rw [Message.delayed, htrigger, Option.isSome_some]
  have hkey : d.msg.key = toLex (d.msTrigger.toNat, c.posted.length) := by
    rw [Message.key, htrigger, hserial, Option.getD_some]
  have hlater : (c.receiveDelayed d).queue.later.Perm (d.msg :: c.queue.later) :=
    (MessageQueue.perm_later _).trans waiting_receiveDelayed
  have hnodup : (((c.receiveDelayed d).queue.later).map Message.key).Nodup := by
    rw [(hlater.map Message.key).nodup_iff, List.map_cons, List.nodup_cons]
    refine ⟨fun hmem => ?_, h.nodup_later⟩
    obtain ⟨e, he, hsame⟩ := List.mem_map.mp hmem
    have hserials : e.label.serial = c.posted.length := by
      rw [hkey] at hsame
      exact congrArg (fun k : ℕ ×ₗ ℕ => (ofLex k).2) hsame
    have := h.serial_lt (List.mem_append_right _ he)
    omega
  obtain ⟨hposts, hold⟩ := (inOrder_append fun m' hm' => h.delays.delayed hm').mp h.inOrder
  refine ⟨h.running, h.serials_append hserial, ?_, h.proper_append hid, ?_, h.due, hdelays, ?_, h.held⟩
  · refine h.kept_append ((hlater.append_left c.done).trans ?_)
    exact List.perm_middle
  · refine (inOrder_append fun m' hm' => hdelays.delayed hm').mpr ⟨hposts, ?_⟩
    rw [List.pairwise_append] at hold ⊢
    refine ⟨hold.1, MessageQueue.pairwise_lt_of_nodup (MessageQueue.pairwise_later _) hnodup,
      fun a ha b hb => ?_⟩
    rcases List.mem_cons.mp (hlater.subset hb) with rfl | hb
    · have hdone : a ∈ c.done := List.mem_of_mem_filter ha
      have hserials := h.serial_lt (List.mem_append_left _ hdone)
      have hsome : a.label.trigger.isSome = true := (List.mem_filter.mp ha).2
      obtain ⟨t, ht⟩ := Option.isSome_iff_exists.mp hsome
      have hdue := h.due a hdone t ht
      rw [hkey, Message.key, ht, Option.getD_some, Prod.Lex.toLex_lt_toLex]
      omega
    · exact hold.2.2 a ha b hb
  · show (c.queue.dmsgqNextNum + 1).toNat = (c.posted ++ [d.msg]).countP (·.delayed)
    rw [List.countP_append, List.countP_singleton, hdelayed, if_pos rfl, h.next_succ hcount]

end Sound

end Posting

/-! ### Clearing -/

section Clearing

variable {c : MessageRun} (phandler : Option ℕ) (id : Uint32)

theorem ready_clear (q : MessageQueue) : (q.clear phandler id).2.ready = q.ready.filter (!·.isMatch phandler id) := by
  rw [MessageQueue.ready, MessageQueue.ready, List.filter_append]
  congr 1
  cases h : q.msgPeek with
  | none => simp [MessageQueue.clear, h]
  | some m => by_cases hm : m.isMatch phandler id <;> simp [MessageQueue.clear, h, hm]

theorem dmsgq_clear (q : MessageQueue) :
    (q.clear phandler id).2.dmsgq.Perm (q.dmsgq.filter (!·.msg.isMatch phandler id)) :=
  Heap.makeHeap_perm _

theorem waiting_clear (q : MessageQueue) :
    (q.clear phandler id).2.waiting.Perm (q.waiting.filter (!·.isMatch phandler id)) := by
  have hmap := (dmsgq_clear phandler id q).toList.map (·.msg)
  rw [Array.toList_filter] at hmap
  rw [MessageQueue.waiting, MessageQueue.waiting, List.filter_map]
  exact hmap

theorem removed_clear (q : MessageQueue) :
    (q.clear phandler id).1.Perm (q.schedule.filter (·.isMatch phandler id)) := by
  rw [MessageQueue.schedule, MessageQueue.ready, List.filter_append, List.filter_append]
  exact ((q.perm_later.filter _).symm.append_left _)

namespace Sound

theorem schedule_clear (h : c.Sound) :
    (c.queue.clear phandler id).2.schedule = c.queue.schedule.filter (!·.isMatch phandler id) := by
  have hlater : (c.queue.clear phandler id).2.later =
      c.queue.later.filter (!·.isMatch phandler id) := by
    refine MessageQueue.later_eq ?_ ?_
    · exact (waiting_clear phandler id c.queue).trans (c.queue.perm_later.filter _).symm
    · exact (MessageQueue.pairwise_lt_of_nodup c.queue.pairwise_later h.nodup_later).sublist
        List.filter_sublist
  rw [MessageQueue.schedule, hlater, ready_clear, ← List.filter_append]
  rfl

theorem clear (h : c.Sound) : (c.step (.clear phandler id)).Sound := by
  have hschedule := h.schedule_clear phandler id
  have hhistory : (c.step (.clear phandler id)).history =
      c.delivered ++ c.queue.schedule.filter (!·.isMatch phandler id) := by
    rw [← hschedule, history, done, List.append_assoc]
    rfl
  have hold : c.history = c.delivered ++ c.queue.schedule := List.append_assoc _ _ _
  have hsub : (c.step (.clear phandler id)).history.Sublist c.history := by
    rw [hhistory, hold]
    exact List.filter_sublist.append_left _
  refine ⟨h.running, h.serials, ?_, h.proper, h.inOrder.sublist hsub, fun m hm => h.due m ?_, ?_,
    h.next, fun hb => ?_⟩
  · refine List.Perm.trans ?_ h.kept
    rw [hhistory, hold]
    have hsplit : (c.queue.schedule.filter (!·.isMatch phandler id) ++
        (c.queue.clear phandler id).1).Perm c.queue.schedule :=
      (List.perm_append_comm.trans ((removed_clear phandler id c.queue).append_right _)).trans
        (List.filter_append_perm _ _)
    have hmove : (c.delivered ++ c.queue.schedule.filter (!·.isMatch phandler id) ++
        (c.removed ++ (c.queue.clear phandler id).1)).Perm
        (c.delivered ++ (c.queue.schedule.filter (!·.isMatch phandler id) ++
          (c.queue.clear phandler id).1) ++ c.removed) := by
      simp only [List.append_assoc]
      exact (List.perm_append_comm.append_left _).append_left _
    exact hmove.trans ((hsplit.append_left _).append_right _)
  · have hm' : m ∈ c.delivered ++ c.queue.ready.filter (!·.isMatch phandler id) := by
      rw [← ready_clear]
      exact hm
    exact (List.filter_sublist.append_left c.delivered).subset hm'
  · refine h.delays.subset (Heap.isHeap_makeHeap DelayedMessage.strictWeak_lt _) (fun d hd => ?_) rfl
    exact (Array.mem_filter.mp ((dmsgq_clear phandler id c.queue).mem_iff.mp hd)).1
  · show c.queue.msgPeek.filter _ = none
    rw [h.held hb]
    rfl

end Sound

end Clearing

/-! ### Getting -/

section Getting

variable {c : MessageRun}

theorem Sound.moveTop {q : MessageQueue} (h : Sound { c with queue := q }) {top : DelayedMessage}
    (htop : q.dmsgq[0]? = some top) (hdue : top.msTrigger.toNat ≤ c.now) :
    Sound { c with queue := q.moveTop top } := by
  have hlater : q.later = top.msg :: (q.moveTop top).later :=
    MessageQueue.later_moveTop h.delays h.nodup_later htop
  have htrigger := h.delays.trigger top (Array.mem_of_getElem? htop)
  have hdone : done { c with queue := q.moveTop top } = done { c with queue := q } ++ [top.msg] := by
    simp only [done, MessageQueue.ready, MessageQueue.moveTop, List.append_assoc]
  have hhistory : history { c with queue := q.moveTop top } = history { c with queue := q } := by
    show done { c with queue := q.moveTop top } ++ (q.moveTop top).later =
      done { c with queue := q } ++ q.later
    rw [hdone, hlater, List.append_assoc, List.singleton_append]
  refine ⟨h.running, h.serials, hhistory ▸ h.kept, h.proper, hhistory ▸ h.inOrder, ?_,
    MessageQueue.Delays.moveTop h.delays htop, h.next, h.held⟩
  intro m hm t ht
  rw [hdone] at hm
  rcases List.mem_append.mp hm with hold | hnew
  · exact h.due m hold t ht
  · rw [List.mem_singleton.mp hnew, htrigger] at ht
    cases ht
    exact hdue

def Fetched (c : MessageRun) : GetOutcome × MessageQueue → Prop
  | (.message m, q) =>
    q.msgPeek = none ∧ Sound { c with queue := { q with msgPeek := some m }, blocked := none } ∧
      MessageQueue.schedule { q with msgPeek := some m } = c.queue.schedule
  | (_, q) => q.msgPeek = none ∧ Sound { c with queue := q } ∧ q.schedule = c.queue.schedule

theorem Sound.of_ready {q q' : MessageQueue} (h : Sound { c with queue := q })
    (hready : q'.ready = q.ready) (hdmsgq : q'.dmsgq = q.dmsgq) (hstop : q'.fStop = q.fStop)
    (hnum : q'.dmsgqNextNum = q.dmsgqNextNum) : Sound { c with queue := q', blocked := none } := by
  have hdone : done { c with queue := q', blocked := none } = done { c with queue := q } := by
    rw [done, done, hready]
  have hlater : q'.later = q.later := by
    rw [MessageQueue.later, MessageQueue.later, MessageQueue.waiting, MessageQueue.waiting, hdmsgq]
  have hhistory : history { c with queue := q', blocked := none } = history { c with queue := q } := by
    rw [history, history, hdone, hlater]
  refine ⟨hstop.trans h.running, h.serials, hhistory ▸ h.kept, h.proper, hhistory ▸ h.inOrder,
    hdone ▸ h.due, h.delays.subset (hdmsgq ▸ h.delays.heap) (fun d hd => hdmsgq ▸ hd) hnum,
    (congrArg BitVec.toNat hnum).trans h.next, fun hb => absurd rfl hb⟩

theorem moveDue_sound (h : c.Sound) (fuel : ℕ) :
    let q := (MessageQueue.moveDue fuel (timeReading c.now) c.queue).2
    Sound { c with queue := q } ∧ q.schedule = c.queue.schedule ∧ q.msgPeek = c.queue.msgPeek ∧
      ∀ d ∈ q.dmsgq, d ∈ c.queue.dmsgq := by
  have hmove : ∀ (q : MessageQueue) (top : DelayedMessage),
      (Sound { c with queue := q } ∧ q.schedule = c.queue.schedule ∧
        q.msgPeek = c.queue.msgPeek ∧ ∀ d ∈ q.dmsgq, d ∈ c.queue.dmsgq) →
      q.dmsgq[0]? = some top → timeIsLater (timeReading c.now) top.msTrigger = false →
      Sound { c with queue := q.moveTop top } ∧ (q.moveTop top).schedule = c.queue.schedule ∧
        (q.moveTop top).msgPeek = c.queue.msgPeek ∧
        ∀ d ∈ (q.moveTop top).dmsgq, d ∈ c.queue.dmsgq := by
    rintro q top ⟨hq, hschedule, hpeek, hsub⟩ htop hdue
    have hnear := hq.delays.near top (Array.mem_of_getElem? htop)
    have hnow : top.msTrigger.toNat ≤ c.now := by
      by_contra hlater
      have hclock := timeIsLater_of_lt (Nat.not_le.mp hlater) hnear
      rw [timeReading_eq, hdue] at hclock
      cases hclock
    refine ⟨hq.moveTop htop hnow, ?_, hpeek, fun d hd => hsub d (MessageQueue.mem_moveTop htop hd)⟩
    rw [MessageQueue.schedule_moveTop hq.delays hq.nodup_later htop, hschedule]
  exact MessageQueue.moveDue_keeps hmove fuel ⟨h, rfl, rfl, fun _ => id⟩

theorem Sound.takePosted (h : c.Sound) {rest : List Message}
    (hq : c.queue.msgq = m :: rest) : MessageQueue.takePosted c.queue.msgq = some (m, rest) := by
  have hm : m ∈ c.history := by
    refine List.mem_append_left _ (List.mem_append_right _ (List.mem_append_right _ ?_))
    rw [hq]
    exact List.mem_cons_self
  rw [hq, MessageQueue.takePosted_cons (h.proper m (h.kept.subset (List.mem_append_left _ hm)))]

theorem fetched_pass (h : c.Sound) (hpeek : c.queue.msgPeek = none) (g : Getting) (cmsElapsed : ℤ) :
    c.Fetched (c.queue.pass g (timeReading c.now) cmsElapsed) := by
  obtain ⟨hsound, hschedule, hmoved, -⟩ := moveDue_sound h c.queue.dmsgq.size
  rw [MessageQueue.pass]
  generalize MessageQueue.moveDue c.queue.dmsgq.size (timeReading c.now) c.queue = r at *
  obtain ⟨cmsDelayNext, q⟩ := r
  dsimp only at hsound hschedule hmoved ⊢
  rw [hpeek] at hmoved
  cases hq : q.msgq with
  | nil =>
    have hsame : { q with msgq := [] } = q := by rw [← hq]
    rw [MessageQueue.takePosted]
    have hrunning : ¬q.fStop = true := Bool.eq_false_iff.mp hsound.running
    dsimp only
    rw [if_neg hrunning, hsame]
    exact ⟨hmoved, hsound, hschedule⟩
  | cons m rest =>
    have htake : MessageQueue.takePosted q.msgq = some (m, rest) := hsound.takePosted hq
    rw [← hq, htake]
    have hready : MessageQueue.ready { q with msgq := rest, msgPeek := some m } = q.ready := by
      rw [MessageQueue.ready, MessageQueue.ready, hq, hmoved]
      rfl
    refine ⟨hmoved, hsound.of_ready hready rfl rfl rfl, ?_⟩
    rw [← hschedule, MessageQueue.schedule, hready]
    rfl

theorem moveDue_delay (fuel : ℕ) (msCurrent : Uint32) {q : MessageQueue} (hfuel : q.dmsgq.size ≤ fuel)
    {top : DelayedMessage} (htop : (MessageQueue.moveDue fuel msCurrent q).2.dmsgq[0]? = some top) :
    (MessageQueue.moveDue fuel msCurrent q).1 = timeDiff top.msTrigger msCurrent := by
  induction fuel generalizing q with
  | zero =>
    rw [MessageQueue.moveDue, Array.getElem?_eq_none (by omega)] at htop
    cases htop
  | succ fuel ih =>
    rw [MessageQueue.moveDue] at htop ⊢
    cases hfirst : q.dmsgq[0]? with
    | none =>
      simp only [hfirst] at htop
      cases htop
    | some first =>
      simp only [hfirst] at htop ⊢
      split_ifs at htop ⊢ with hlater
      · rw [hfirst] at htop
        rw [Option.some.inj htop]
      · refine ih ?_ htop
        rw [MessageQueue.size_pop_dmsgq]
        omega

theorem nextWait_le (cmsWait cmsElapsed : ℤ) {cmsDelayNext : ℤ} (h : 0 ≤ cmsDelayNext) :
    MessageQueue.nextWait cmsWait cmsDelayNext cmsElapsed ≠ kForever ∧
      MessageQueue.nextWait cmsWait cmsDelayNext cmsElapsed ≤ cmsDelayNext := by
  have hforever : kForever = -1 := rfl
  unfold MessageQueue.nextWait
  dsimp only
  split_ifs <;> omega

def WaitsInTime (c : MessageRun) (g : Getting) (q : MessageQueue) : Prop :=
  q.msgq = [] ∧ ∀ d ∈ q.dmsgq, c.now < d.msTrigger.toNat ∧
    g.cmsNext ≠ kForever ∧ c.now + g.cmsNext ≤ d.msTrigger.toNat

theorem pass_waiting (h : c.Sound) {g' : Getting} {cmsElapsed : ℤ}
    (hlate : ∀ d ∈ c.queue.dmsgq, c.now < d.msTrigger.toNat + 2 ^ 31) {q : MessageQueue}
    (hpass : c.queue.pass g (timeReading c.now) cmsElapsed = (.waiting g', q)) : c.WaitsInTime g' q := by
  obtain ⟨hsound, -, -, hsub⟩ := moveDue_sound h c.queue.dmsgq.size
  have htop := @MessageQueue.moveDue_top c.queue.dmsgq.size (timeReading c.now) c.queue le_rfl
  have hdelay := @moveDue_delay c.queue.dmsgq.size (timeReading c.now) c.queue le_rfl
  rw [MessageQueue.pass] at hpass
  generalize MessageQueue.moveDue c.queue.dmsgq.size (timeReading c.now) c.queue = r at *
  obtain ⟨cmsDelayNext, q₁⟩ := r
  dsimp only at hsound hsub htop hdelay hpass
  cases hq : q₁.msgq with
  | cons m rest =>
    have htake : MessageQueue.takePosted q₁.msgq = some (m, rest) := hsound.takePosted hq
    rw [htake] at hpass
    cases hpass
  | nil =>
    rw [hq, MessageQueue.takePosted] at hpass
    have hrunning : ¬q₁.fStop = true := Bool.eq_false_iff.mp hsound.running
    dsimp only at hpass
    rw [if_neg hrunning] at hpass
    cases hpass
    refine ⟨rfl, fun d hd => ?_⟩
    have hpos : 0 < q₁.dmsgq.size := Array.size_pos_of_mem hd
    have hfirst := Array.getElem?_eq_getElem hpos
    have hmem : q₁.dmsgq[0] ∈ q₁.dmsgq := Array.getElem_mem hpos
    have hlater := htop hfirst
    have hbefore := hlate _ (hsub _ hmem)
    have hnear := hsound.delays.near _ hmem
    rw [← timeReading_eq q₁.dmsgq[0].msTrigger, timeIsLater_reading hbefore hnear] at hlater
    have hnow := of_decide_eq_true hlater
    have hwait : cmsDelayNext = q₁.dmsgq[0].msTrigger.toNat - c.now := by
      rw [hdelay hfirst, ← timeReading_eq q₁.dmsgq[0].msTrigger, timeDiff_reading hbefore hnear, timeReading_eq]
    have hfirstDue := hsound.delays.top_trigger_le hfirst hd
    obtain ⟨hforever, hle⟩ := nextWait_le g.cmsWait cmsElapsed (show 0 ≤ cmsDelayNext by omega)
    exact ⟨hnow.trans_le hfirstDue, hforever, by show c.now + MessageQueue.nextWait _ _ _ ≤ _; omega⟩

theorem fetched_get (h : c.Sound) (cmsWait : ℤ) (processIo : Bool) :
    c.Fetched (c.queue.get (timeReading c.now) cmsWait processIo) := by
  rw [MessageQueue.get]
  cases hpeek : c.queue.msgPeek with
  | some m =>
    have hsame : { c.queue with msgPeek := some m } = c.queue := by rw [← hpeek]
    refine ⟨rfl, ?_, congrArg MessageQueue.schedule hsame⟩
    exact Sound.of_ready h (congrArg MessageQueue.ready hsame) rfl rfl rfl
  | none => exact fetched_pass h hpeek _ 0

theorem fetched_waited (h : c.Sound) (hblocked : c.blocked = some (peeking, g)) (ok : Bool) :
    c.Fetched (c.queue.waited g ok (timeReading c.now)) := by
  have hpeek : c.queue.msgPeek = none := h.held (by rw [hblocked]; exact Option.some_ne_none _)
  rw [MessageQueue.waited]
  dsimp only
  split
  · exact ⟨hpeek, h, rfl⟩
  · split
    · exact ⟨hpeek, h, rfl⟩
    · exact fetched_pass h hpeek g _

theorem Fetched.finish {r : GetOutcome × MessageQueue} (h : c.Fetched r) (peeking : Bool) :
    (c.finish peeking r).Sound ∧ (c.finish peeking r).history = c.history := by
  have hhistory (c' : MessageRun) : c'.history = c'.delivered ++ c'.queue.schedule :=
    List.append_assoc _ _ _
  rw [hhistory, hhistory]
  obtain ⟨outcome, q⟩ := r
  cases outcome with
  | nothing =>
    obtain ⟨hpeek, hsound, hschedule⟩ := h
    exact ⟨hsound.of_ready rfl rfl rfl rfl, congrArg (c.delivered ++ ·) hschedule⟩
  | waiting g =>
    obtain ⟨hpeek, hsound, hschedule⟩ := h
    refine ⟨?_, congrArg (c.delivered ++ ·) hschedule⟩
    exact ⟨hsound.running, hsound.serials, hsound.kept, hsound.proper, hsound.inOrder, hsound.due,
      hsound.delays, hsound.next, fun _ => hpeek⟩
  | message m =>
    obtain ⟨hpeek, hsound, hschedule⟩ := h
    cases peeking with
    | true => exact ⟨hsound, congrArg (c.delivered ++ ·) hschedule⟩
    | false =>
      have hfront : MessageQueue.schedule { q with msgPeek := some m } = m :: q.schedule := by
        rw [MessageQueue.schedule, MessageQueue.schedule, MessageQueue.ready, MessageQueue.ready, hpeek]
        rfl
      have hdone : done { c with queue := q, blocked := none, delivered := c.delivered ++ [m] } =
          done { c with queue := { q with msgPeek := some m }, blocked := none } := by
        rw [done, done, MessageQueue.ready, MessageQueue.ready, hpeek]
        simp
      have hsame : history { c with queue := q, blocked := none, delivered := c.delivered ++ [m] } =
          history { c with queue := { q with msgPeek := some m }, blocked := none } := by
        rw [history, history, hdone]
        rfl
      constructor
      · exact ⟨hsound.running, hsound.serials, hsame ▸ hsound.kept, hsound.proper,
          hsame ▸ hsound.inOrder, hdone ▸ hsound.due, ⟨hsound.delays.heap, hsound.delays.trigger,
            hsound.delays.near, hsound.delays.fresh, hsound.delays.ordered⟩, hsound.next,
          fun hb => absurd rfl hb⟩
      · show c.delivered ++ [m] ++ q.schedule = _
        rw [← hschedule, hfront, List.append_assoc, List.singleton_append]

end Getting

/-! ### Runs -/

/-- A queue at the time `now` with nothing posted. -/
def start (now : ℕ) : MessageRun := { now := now }

theorem sound_start (now : ℕ) : (start now).Sound where
  running := rfl
  serials := rfl
  kept := .refl _
  proper := nofun
  inOrder := ⟨.nil, .nil⟩
  due := nofun
  delays := ⟨Heap.isHeap_empty, nofun, nofun, nofun, nofun⟩
  next := rfl
  held := fun h => absurd rfl h

variable {c : MessageRun}

theorem step_post (h : c.Sound) (phandler : Option ℕ) (id : Uint32) (pdata : Option ℕ)
    (timeSensitive : Bool) : c.step (.post phandler id pdata timeSensitive) = c.receive
      (MessageQueue.postedMessage (timeReading c.now) phandler id pdata timeSensitive (c.label none)) := by
  rw [step, MessageQueue.post, if_neg (Bool.eq_false_iff.mp h.running)]
  rfl

theorem step_postDelayed (h : c.Sound) {cmsDelay : ℤ} (hdelay : 0 ≤ cmsDelay) (phandler : Option ℕ)
    (id : Uint32) (pdata : Option ℕ) :
    c.step (.postDelayed cmsDelay phandler id pdata) = c.receiveDelayed
      ⟨cmsDelay, timeReading (c.now + cmsDelay.toNat), c.queue.dmsgqNextNum,
        ⟨phandler, id, pdata, 0, c.label (some (c.now + cmsDelay.toNat))⟩⟩ := by
  have hafter : timeAfter (timeReading c.now) cmsDelay = timeReading (c.now + cmsDelay.toNat) := by
    conv_lhs => rw [← Int.toNat_of_nonneg hdelay]
    exact timeAfter_reading
  rw [step, MessageQueue.postDelayed, MessageQueue.doDelayPost,
    if_neg (Bool.eq_false_iff.mp h.running), hafter]
  rfl

/-- **Every legal event keeps the mailbox sound**. -/
theorem sound_step (c : MessageRun) (e : MessageEvent) (h : c.Sound) (hlegal : c.Legal e) : (c.step e).Sound := by
  cases e with
  | post phandler id pdata timeSensitive =>
    rw [step_post h]
    exact h.receive rfl rfl hlegal
  | postDelayed cmsDelay phandler id pdata =>
    obtain ⟨hid, hdelay, hsmall, hwrap, hcount⟩ := hlegal
    have hreading := timeReading_toNat hwrap
    rw [step_postDelayed h hdelay]
    refine h.receiveDelayed rfl (congrArg some hreading.symm) rfl hid ?_ ?_ hcount
    · rw [hreading]
      exact Nat.le_add_right _ _
    · rw [hreading]
      omega
  | clear phandler id => exact h.clear phandler id
  | get cmsWait processIo => exact ((fetched_get h cmsWait processIo).finish false).1
  | peek cmsWait =>
    rw [step]
    split
    · exact h
    · exact ((fetched_get h cmsWait true).finish true).1
  | waited ok =>
    rw [step]
    split
    · exact h
    · rename_i peeking g hblocked
      exact ((fetched_waited h hblocked ok).finish peeking).1
  | elapse ms =>
    refine ⟨h.running, h.serials, h.kept, h.proper, h.inOrder, fun m hm t ht => ?_,
      h.delays.elapse (Nat.le_add_right _ _), h.next, h.held⟩
    exact (h.due m hm t ht).trans (Nat.le_add_right _ _)

instance (c : MessageRun) : (e : MessageEvent) → Decidable (c.Legal e)
  | .post _ id _ _ => inferInstanceAs (Decidable (id ≠ mqidDispose))
  | .postDelayed cmsDelay _ id _ =>
    inferInstanceAs (Decidable (id ≠ mqidDispose ∧ 0 ≤ cmsDelay ∧ cmsDelay < 2 ^ 31 ∧
      c.now + cmsDelay.toNat < 2 ^ 32 ∧ c.posted.countP (·.delayed) + 1 < 2 ^ 32))
  | .get _ _ | .peek _ => inferInstanceAs (Decidable (c.blocked = none))
  | .clear _ _ | .waited _ | .elapse _ => isTrue trivial

/-- **A message queue loses and duplicates nothing**: each message is pending, delivered or removed,
just once, and in order; `Clear` removes what matches. -/
theorem messageQueue_exact (now : ℕ) (events : List MessageEvent) (hlegal : Guarded step Legal (start now) events) :
    let c := run step (start now) events
    (c.pending ++ c.delivered ++ c.removed).Perm c.posted ∧ c.posted.Nodup ∧
      c.pending.Perm c.queue.schedule ∧ InOrder (c.delivered ++ c.queue.schedule) ∧
      ∀ (phandler : Option ℕ) (id : Uint32),
        let c' := c.step (.clear phandler id)
        c'.queue.schedule = c.queue.schedule.filter (!·.isMatch phandler id) ∧
          (∃ ms, c'.removed = c.removed ++ ms ∧
            ms.Perm (c.queue.schedule.filter (·.isMatch phandler id))) ∧
          c'.delivered = c.delivered ∧ c'.posted = c.posted := by
  have h : (run step (start now) events).Sound := run_invariant sound_step (sound_start now) hlegal
  generalize run step (start now) events = c at *
  have hpending : c.pending.Perm c.queue.schedule := c.queue.perm_later.symm.append_left _
  have hhistory : c.history = c.delivered ++ c.queue.schedule := List.append_assoc _ _ _
  refine ⟨?_, h.nodup_posted, hpending, hhistory ▸ h.inOrder, fun phandler id => ?_⟩
  · have hkept := h.kept
    rw [hhistory] at hkept
    exact ((List.perm_append_comm.trans (hpending.append_left _)).append_right _).trans hkept
  · exact ⟨h.schedule_clear phandler id, ⟨_, rfl, removed_clear phandler id c.queue⟩, rfl, rfl⟩

theorem messageQueue_exact_peek :
    let events := [.postDelayed 5 (some 1) 7 none, .postDelayed 5 (some 2) 8 none, .elapse 5, .peek 0,
      .post (some 3) 9 none true, .clear (some 1) mqidAny, .get kForever true]
    let c := run step (start 0) events
    c.removed.map (·.label.serial) = [0] ∧ c.delivered.map (·.label.serial) = [1] ∧
      c.pending.map (·.label.serial) = [2] ∧
      (c.pending ++ c.delivered ++ c.removed).Perm c.posted ∧
      InOrder (c.delivered ++ c.queue.schedule) := by
  intro events c
  obtain ⟨hperm, -, -, hinOrder, -⟩ := messageQueue_exact 0 events (by decide)
  exact ⟨by decide, by decide, by decide, hperm, hinOrder⟩

/-! ### Waiting -/

def fetches : MessageEvent → Bool
  | .get _ _ | .peek _ | .waited _ => true
  | _ => false

theorem finish_blocked {peeking' : Bool} {r : GetOutcome × MessageQueue}
    (h : (c.finish peeking r).blocked = some (peeking', g)) :
    r.1 = .waiting g ∧ (c.finish peeking r).queue = r.2 := by
  obtain ⟨outcome, q⟩ := r
  cases outcome with
  | message m => cases peeking <;> cases h
  | waiting g' => exact ⟨congrArg GetOutcome.waiting (Prod.mk.inj (Option.some.inj h)).2, rfl⟩
  | nothing => cases h

theorem get_waiting (h : c.Sound) (hlate : ∀ d ∈ c.queue.dmsgq, c.now < d.msTrigger.toNat + 2 ^ 31)
    {cmsWait : ℤ} {processIo peeking' : Bool}
    (hblocked : (c.finish peeking (c.queue.get (timeReading c.now) cmsWait processIo)).blocked =
      some (peeking', g)) :
    c.WaitsInTime g (c.finish peeking (c.queue.get (timeReading c.now) cmsWait processIo)).queue := by
  obtain ⟨hwaiting, hqueue⟩ := finish_blocked hblocked
  rw [hqueue]
  rw [MessageQueue.get] at hwaiting ⊢
  cases hpeek : c.queue.msgPeek with
  | some m =>
    rw [hpeek] at hwaiting
    cases hwaiting
  | none =>
    rw [hpeek] at hwaiting
    exact pass_waiting h hlate (Prod.ext hwaiting rfl)

/-- **`Get` does not sleep past a message**. -/
theorem wait_in_time (now : ℕ) (events : List MessageEvent) (hlegal : Guarded step Legal (start now) events)
    (event : MessageEvent) (hfetches : fetches event = true)
    (hevent : (run step (start now) events).Legal event)
    (hlate : ∀ d ∈ (run step (start now) events).queue.dmsgq,
      (run step (start now) events).now < d.msTrigger.toNat + 2 ^ 31)
    {peeking : Bool} {g : Getting}
    (hblocked : ((run step (start now) events).step event).blocked = some (peeking, g)) :
    (run step (start now) events).WaitsInTime g ((run step (start now) events).step event).queue := by
  have h : (run step (start now) events).Sound := run_invariant sound_step (sound_start now) hlegal
  generalize run step (start now) events = c at *
  cases event with
  | post | postDelayed | clear | elapse => cases hfetches
  | get cmsWait processIo => exact get_waiting h hlate hblocked
  | peek cmsWait =>
    rw [step] at hblocked ⊢
    split_ifs at hblocked ⊢ with hpeek
    · exact absurd (hblocked.symm.trans hevent) (Option.some_ne_none _)
    · exact get_waiting h hlate hblocked
  | waited ok =>
    rw [step] at hblocked ⊢
    cases hwaits : c.blocked with
    | none =>
      simp only [hwaits] at hblocked
      cases hblocked
    | some wait =>
      simp only [hwaits] at hblocked ⊢
      obtain ⟨hwaiting, hqueue⟩ := finish_blocked hblocked
      rw [hqueue]
      rw [MessageQueue.waited] at hwaiting ⊢
      dsimp only at hwaiting ⊢
      split_ifs at hwaiting ⊢
      exact pass_waiting h hlate (Prod.ext hwaiting rfl)

/-- A message is due in five milliseconds, and `Get` waits that long. -/
theorem wait_in_time_five :
    WaitsInTime { now := 7 } ⟨kForever, true, 7, 5⟩
      ((run step (start 7) [.postDelayed 5 (some 1) 7 none]).step (.get kForever true)).queue :=
  wait_in_time 7 [.postDelayed 5 (some 1) 7 none] (by decide) (.get kForever true) rfl rfl (by decide)
    (show _ = some (false, _) from rfl)

end MessageRun

end Libjingle
