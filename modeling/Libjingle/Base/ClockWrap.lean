import Libjingle.Base.Mailbox

/-!
# The clock wraps while messages are delayed

Main results: **`swept_moveDue`**, **`allMoved_iff`**, **`dueMoved_iff`**.
-/

namespace Libjingle

open Lib

namespace MessageQueue

def postAt (q : MessageQueue) (now tstamp : Uint32) (phandler : Option ℕ) (id : Uint32)
    (pdata : Option ℕ) (label : Label) : MessageQueue :=
  q.doDelayPost (timeDiff tstamp now) tstamp phandler id pdata label

def quit (q : MessageQueue) : MessageQueue := { q with fStop := true }

/-- `Restart`. -/
def restart (q : MessageQueue) : MessageQueue := { q with fStop := false }

/-! ## The loop over `dmsgq_` -/

/-- The messages `moved` went from the delayed ones of `q` to the end of `msgq_`. -/
structure Swept (now : Uint32) (q q' : MessageQueue) (moved : List DelayedMessage) : Prop where
  parts : (moved ++ q'.dmsgq.toList).Perm q.dmsgq.toList
  msgq : q'.msgq = q.msgq ++ moved.map (·.msg)
  due : ∀ d ∈ moved, timeIsLater now d.msTrigger = false
  first : ∀ d ∈ moved, ∀ e ∈ q'.dmsgq, ¬e.msTrigger < d.msTrigger
  heap : Heap.IsHeap DelayedMessage.lt q'.dmsgq
  msgPeek : q'.msgPeek = q.msgPeek

variable {now : Uint32} {q q' : MessageQueue} {moved : List DelayedMessage}

theorem top_msTrigger (hheap : Heap.IsHeap DelayedMessage.lt q.dmsgq) {top e : DelayedMessage}
    (htop : q.dmsgq[0]? = some top) (he : e ∈ q.dmsgq) : ¬e.msTrigger < top.msTrigger := by
  obtain ⟨i, hi, rfl⟩ := Array.mem_iff_getElem.mp he
  obtain ⟨hpos, rfl⟩ := Array.getElem?_eq_some_iff.mp htop
  have hfirst := hheap.top DelayedMessage.strictWeak_lt i
  rw [Heap.ltAt_eq hpos hi, DelayedMessage.lt, Bool.or_eq_false_iff] at hfirst
  exact of_decide_eq_false hfirst.1

theorem Swept.mem (h : Swept now q q' moved) {d : DelayedMessage} : d ∈ q.dmsgq ↔ d ∈ moved ∨ d ∈ q'.dmsgq := by
  rw [← Array.mem_toList_iff, ← h.parts.mem_iff, List.mem_append, @Array.mem_toList_iff _ d q'.dmsgq]

theorem Swept.moveTop (h : Swept now q q' moved) {top : DelayedMessage} (htop : q'.dmsgq[0]? = some top)
    (hdue : timeIsLater now top.msTrigger = false) : Swept now q (q'.moveTop top) (moved ++ [top]) where
  parts := by
    obtain ⟨hpos, rfl⟩ := Array.getElem?_eq_some_iff.mp htop
    refine List.Perm.trans ?_ h.parts
    rw [List.append_assoc, List.singleton_append]
    exact (Heap.pop_perm hpos).symm.append_left moved
  msgq := by
    rw [MessageQueue.moveTop, h.msgq, List.map_append, ← List.append_assoc]
    rfl
  due := List.forall_mem_append.mpr ⟨h.due, List.forall_mem_singleton.mpr hdue⟩
  first := by
    refine List.forall_mem_append.mpr ⟨fun d hd e he => ?_, List.forall_mem_singleton.mpr fun e he => ?_⟩
    · exact h.first d hd e (mem_moveTop htop he)
    · exact top_msTrigger h.heap htop (mem_moveTop htop he)
  heap := Heap.isHeap_pop DelayedMessage.strictWeak_lt h.heap
  msgPeek := h.msgPeek

theorem swept_moveDue (hheap : Heap.IsHeap DelayedMessage.lt q.dmsgq) (fuel : ℕ) :
    ∃ moved, Swept now q (moveDue fuel now q).2 moved := by
  refine moveDue_keeps (fun q' top => ?_) fuel (I := fun q' => ∃ moved, Swept now q q' moved) ?_
  · rintro ⟨moved, h⟩ htop hdue
    exact ⟨moved ++ [top], h.moveTop htop hdue⟩
  · exact ⟨[], .refl _, (List.append_nil _).symm, nofun, nofun, hheap, rfl⟩

/-- **Everything due is moved exactly if nothing due hides behind what is not**. -/
theorem allMoved_iff (hheap : Heap.IsHeap DelayedMessage.lt q.dmsgq) :
    (∀ d ∈ (moveDue q.dmsgq.size now q).2.dmsgq, timeIsLater now d.msTrigger = true) ↔
      ∀ d ∈ q.dmsgq, ∀ e ∈ q.dmsgq, timeIsLater now d.msTrigger = false →
        timeIsLater now e.msTrigger = true → d.msTrigger < e.msTrigger := by
  obtain ⟨moved, h⟩ := @swept_moveDue now q hheap q.dmsgq.size
  have htop := @moveDue_top q.dmsgq.size now q le_rfl
  generalize (moveDue q.dmsgq.size now q).2 = q' at *
  constructor
  · intro hleft d hd e he hdue hlater
    have hdmoved : d ∈ moved := (h.mem.mp hd).resolve_right fun hd' => by
      rw [hleft d hd'] at hdue
      cases hdue
    have heleft : e ∈ q'.dmsgq := (h.mem.mp he).resolve_left fun he' => by
      rw [h.due e he'] at hlater
      cases hlater
    have hle := h.first d hdmoved e heleft
    have hne : d.msTrigger ≠ e.msTrigger := by
      intro heq
      rw [heq, hlater] at hdue
      cases hdue
    rw [BitVec.lt_def] at hle ⊢
    rw [ne_eq, ← BitVec.toNat_inj] at hne
    omega
  · intro hreadings d hd
    by_contra hdue
    have hpos : 0 < q'.dmsgq.size := Array.size_pos_of_mem hd
    have hfirst := Array.getElem?_eq_getElem hpos
    refine top_msTrigger h.heap hfirst hd ?_
    exact hreadings d (h.mem.mpr (.inr hd)) _ (h.mem.mpr (.inr (Array.getElem_mem hpos)))
      (Bool.eq_false_iff.mpr hdue) (htop hfirst)

/-- What a round of `Get` returns, and what is ready. -/
def atHand : GetOutcome × MessageQueue → List Message
  | (.message m, q) => m :: q.ready
  | (_, q) => q.ready

theorem takePosted_subset {ms rest : List Message} {m : Message} (h : takePosted ms = some (m, rest)) :
    m :: rest ⊆ ms := by
  induction ms with
  | nil => cases h
  | cons first ms ih =>
    rw [takePosted] at h
    split at h
    · exact List.Subset.trans (ih h) (List.subset_cons_self _ _)
    · cases h
      exact List.Subset.refl _

theorem pass_moveDue (q : MessageQueue) (g : Getting) (now : Uint32) (cmsElapsed : ℤ) :
    (q.pass g now cmsElapsed).2.dmsgq = (moveDue q.dmsgq.size now q).2.dmsgq ∧
      atHand (q.pass g now cmsElapsed) ⊆ (moveDue q.dmsgq.size now q).2.ready := by
  rw [pass]
  generalize (moveDue q.dmsgq.size now q) = r
  cases htake : takePosted r.2.msgq with
  | some taken =>
    obtain ⟨m, rest⟩ := taken
    refine ⟨rfl, List.cons_subset.mpr ⟨?_, ?_⟩⟩
    · exact List.mem_append_right _ (takePosted_subset htake List.mem_cons_self)
    · refine List.append_subset.mpr ⟨List.subset_append_left _ _, fun m' hm' => ?_⟩
      exact List.mem_append_right _ (takePosted_subset htake (List.mem_cons_of_mem _ hm'))
  | none =>
    have hnone : r.2.msgPeek.toList ++ [] ⊆ r.2.ready :=
      List.append_subset.mpr ⟨List.subset_append_left _ _, List.nil_subset _⟩
    dsimp only
    split
    · exact ⟨rfl, hnone⟩
    · exact ⟨rfl, hnone⟩

end MessageQueue

/-! ## Runs -/

def Message.trigger (m : Message) : ℕ := m.label.trigger.getD 0

/-- The calls that `MessageEvent` leaves out: posting at a time, and stopping. -/
inductive MessageCall
  | event (e : MessageEvent)
  | postAt (trigger : ℕ) (phandler : Option ℕ) (id : Uint32) (pdata : Option ℕ)
  | quit
  | restart

namespace MessageRun

def call (c : MessageRun) : MessageCall → MessageRun
  | .event e => c.step e
  | .postAt trigger phandler id pdata =>
    let label := c.label (some trigger)
    { c with
      queue := c.queue.postAt (timeReading c.now) (timeReading trigger) phandler id pdata label
      posted := c.posted ++ [⟨phandler, id, pdata, 0, label⟩] }
  | .quit => { c with queue := c.queue.quit }
  | .restart => { c with queue := c.queue.restart }

def Near (c : MessageRun) : Prop :=
  ∀ m ∈ c.queue.waiting, m.trigger ≤ c.now + 2 ^ 30 ∧ c.now ≤ m.trigger + 2 ^ 30

instance (c : MessageRun) : Decidable c.Near :=
  inferInstanceAs (Decidable (∀ m ∈ c.queue.waiting, _))

def Allows (c : MessageRun) : MessageCall → Prop
  | .event (.postDelayed cmsDelay _ _ _) => 0 ≤ cmsDelay
  | .event (.get _ _) | .event (.peek _) | .event (.waited _) => c.Near
  | _ => True

/-- The queue when `Get` examines it. -/
def examined (c : MessageRun) : MessageQueue :=
  (MessageQueue.moveDue c.queue.dmsgq.size (timeReading c.now) c.queue).2

def NoWrap (c : MessageRun) : Prop :=
  ∀ m ∈ c.queue.waiting, ∀ m' ∈ c.queue.waiting, m.trigger ≤ c.now → c.now < m'.trigger →
    m.trigger / 2 ^ 32 = m'.trigger / 2 ^ 32

instance (c : MessageRun) : Decidable c.NoWrap :=
  inferInstanceAs (Decidable (∀ m ∈ c.queue.waiting, ∀ m' ∈ c.queue.waiting, _ → _ → _))

/-- The invariant: the delayed messages are a heap by the readings, and nothing is ready or
delivered early. -/
structure Punctual (c : MessageRun) : Prop where
  heap : Heap.IsHeap DelayedMessage.lt c.queue.dmsgq
  reading : ∀ d ∈ c.queue.dmsgq, d.msTrigger = timeReading d.msg.trigger
  due : ∀ m ∈ c.done, m.trigger ≤ c.now

/-- **What a `Get` comes to**. -/
structure Served (c : MessageRun) (r : GetOutcome × MessageQueue) : Prop where
  heap : Heap.IsHeap DelayedMessage.lt r.2.dmsgq
  sub : ∀ d ∈ r.2.dmsgq, d ∈ c.queue.dmsgq
  due : ∀ m ∈ MessageQueue.atHand r, m.trigger ≤ c.now

namespace Punctual

variable {c : MessageRun}

theorem isLater_iff (h : c.Punctual) (hnear : c.Near) {d : DelayedMessage} (hd : d ∈ c.queue.dmsgq) :
    timeIsLater (timeReading c.now) d.msTrigger = decide (c.now < d.msg.trigger) := by
  obtain ⟨hafter, hbefore⟩ := hnear d.msg (MessageQueue.mem_waiting.mpr ⟨d, hd, rfl⟩)
  rw [h.reading d hd]
  exact timeIsLater_reading (by omega) (by omega)

theorem reading_lt_iff {t t' now : ℕ} (ht : t ≤ now) (ht' : now < t') (hnear : t' ≤ now + 2 ^ 30)
    (hnear' : now ≤ t + 2 ^ 30) : timeReading t < timeReading t' ↔ t / 2 ^ 32 = t' / 2 ^ 32 := by
  rw [BitVec.lt_def, timeReading, timeReading, BitVec.toNat_ofNat, BitVec.toNat_ofNat]
  omega

theorem readings_iff (h : c.Punctual) (hnear : c.Near) :
    (∀ d ∈ c.queue.dmsgq, ∀ e ∈ c.queue.dmsgq, timeIsLater (timeReading c.now) d.msTrigger = false →
        timeIsLater (timeReading c.now) e.msTrigger = true → d.msTrigger < e.msTrigger) ↔ c.NoWrap := by
  have hpair {d e : DelayedMessage} (hd : d ∈ c.queue.dmsgq) (he : e ∈ c.queue.dmsgq)
      (hdue : d.msg.trigger ≤ c.now) (hlater : c.now < e.msg.trigger) :
      d.msTrigger < e.msTrigger ↔ d.msg.trigger / 2 ^ 32 = e.msg.trigger / 2 ^ 32 := by
    rw [h.reading d hd, h.reading e he]
    exact reading_lt_iff hdue hlater (hnear _ (MessageQueue.mem_waiting.mpr ⟨e, he, rfl⟩)).1
      (hnear _ (MessageQueue.mem_waiting.mpr ⟨d, hd, rfl⟩)).2
  constructor
  · intro hall m hm m' hm' hdue hlater
    obtain ⟨d, hd, rfl⟩ := MessageQueue.mem_waiting.mp hm
    obtain ⟨e, he, rfl⟩ := MessageQueue.mem_waiting.mp hm'
    refine (hpair hd he hdue hlater).mp (hall d hd e he ?_ ?_)
    · rw [h.isLater_iff hnear hd]
      exact decide_eq_false (Nat.not_lt.mpr hdue)
    · rw [h.isLater_iff hnear he]
      exact decide_eq_true hlater
  · intro hnowrap d hd e he hdue hlater
    rw [h.isLater_iff hnear hd, decide_eq_false_iff_not, Nat.not_lt] at hdue
    rw [h.isLater_iff hnear he, decide_eq_true_iff] at hlater
    exact (hpair hd he hdue hlater).mpr (hnowrap _ (MessageQueue.mem_waiting.mpr ⟨d, hd, rfl⟩) _
      (MessageQueue.mem_waiting.mpr ⟨e, he, rfl⟩) hdue hlater)

theorem atHand_due (h : c.Punctual) (hnear : c.Near) : ∀ m ∈ c.examined.ready, m.trigger ≤ c.now := by
  obtain ⟨moved, hswept⟩ :=
    @MessageQueue.swept_moveDue (timeReading c.now) c.queue h.heap c.queue.dmsgq.size
  intro m hm
  rw [MessageQueue.ready, examined, hswept.msgPeek, hswept.msgq, ← List.append_assoc,
    List.mem_append] at hm
  cases hm with
  | inl hready => exact h.due m (List.mem_append_right _ hready)
  | inr hmoved =>
    obtain ⟨d, hd, rfl⟩ := List.mem_map.mp hmoved
    have hdue := hswept.due d hd
    rw [h.isLater_iff hnear (hswept.mem.mpr (.inl hd))] at hdue
    exact Nat.not_lt.mp (of_decide_eq_false hdue)

theorem served_pass (h : c.Punctual) (hnear : c.Near) (g : Getting) (cmsElapsed : ℤ) :
    c.Served (c.queue.pass g (timeReading c.now) cmsElapsed) := by
  obtain ⟨hdmsgq, hhand⟩ := c.queue.pass_moveDue g (timeReading c.now) cmsElapsed
  obtain ⟨moved, hswept⟩ :=
    @MessageQueue.swept_moveDue (timeReading c.now) c.queue h.heap c.queue.dmsgq.size
  constructor
  · rw [hdmsgq]
    exact hswept.heap
  · rw [hdmsgq]
    exact fun d hd => hswept.mem.mpr (.inr hd)
  · exact fun m hm => h.atHand_due hnear m (hhand hm)

theorem served_get (h : c.Punctual) (hnear : c.Near) (cmsWait : ℤ) (processIo : Bool) :
    c.Served (c.queue.get (timeReading c.now) cmsWait processIo) := by
  rw [MessageQueue.get]
  cases hpeek : c.queue.msgPeek with
  | none => exact served_pass h hnear _ 0
  | some m =>
    refine ⟨h.heap, fun _ => id, fun m' hm' => h.due m' (List.mem_append_right _ ?_)⟩
    rw [MessageQueue.ready, hpeek]
    exact hm'

theorem served_waited (h : c.Punctual) (hnear : c.Near) (g : Getting) (ok : Bool) :
    c.Served (c.queue.waited g ok (timeReading c.now)) := by
  have hnothing : c.Served (.nothing, c.queue) :=
    ⟨h.heap, fun _ => id, fun m hm => h.due m (List.mem_append_right _ hm)⟩
  rw [MessageQueue.waited]
  dsimp only
  split
  · exact hnothing
  · split
    · exact hnothing
    · exact served_pass h hnear g _

theorem done_finish (c : MessageRun) (peeking : Bool) (r : GetOutcome × MessageQueue) :
    (c.finish peeking r).done ⊆ c.delivered ++ MessageQueue.atHand r := by
  obtain ⟨outcome, q⟩ := r
  cases outcome with
  | nothing => exact List.Subset.refl _
  | waiting g => exact List.Subset.refl _
  | message m =>
    cases peeking with
    | true =>
      refine List.append_subset.mpr ⟨List.subset_append_left _ _, fun m' hm' => List.mem_append_right _ ?_⟩
      exact List.cons_subset_cons m (List.subset_append_right _ _) hm'
    | false =>
      exact fun m' hm' => Eq.mp (congrArg (m' ∈ ·) (List.append_assoc c.delivered [m] q.ready)) hm'

theorem finish (h : c.Punctual) {r : GetOutcome × MessageQueue} (hr : c.Served r) (peeking : Bool) :
    (c.finish peeking r).Punctual := by
  have hnow : (c.finish peeking r).now = c.now := by
    obtain ⟨outcome, q⟩ := r
    cases outcome <;> cases peeking <;> rfl
  have hdmsgq : (c.finish peeking r).queue.dmsgq = r.2.dmsgq := by
    obtain ⟨outcome, q⟩ := r
    cases outcome <;> cases peeking <;> rfl
  refine ⟨hdmsgq ▸ hr.heap, fun d hd => h.reading d (hr.sub d (hdmsgq ▸ hd)), fun m hm => hnow ▸ ?_⟩
  cases List.mem_append.mp (done_finish c peeking r hm) with
  | inl hdelivered => exact h.due m (List.mem_append_left _ hdelivered)
  | inr hhand => exact hr.due m hhand

theorem doDelayPost (h : c.Punctual) (cmsDelay : ℤ) (phandler : Option ℕ) (id : Uint32)
    (pdata : Option ℕ) (trigger : ℕ) (posted : List Message) :
    Punctual { c with
      queue := c.queue.doDelayPost cmsDelay (timeReading trigger) phandler id pdata
        (c.label (some trigger))
      posted := posted } := by
  rw [MessageQueue.doDelayPost]
  split
  · exact ⟨h.heap, h.reading, h.due⟩
  · refine ⟨Heap.isHeap_push DelayedMessage.strictWeak_lt h.heap _, fun d hd => ?_, h.due⟩
    rw [(Heap.push_perm _ _).mem_iff, Array.mem_push] at hd
    obtain hd | rfl := hd
    · exact h.reading d hd
    · rfl

theorem post (h : c.Punctual) (phandler : Option ℕ) (id : Uint32) (pdata : Option ℕ)
    (timeSensitive : Bool) : (c.step (.post phandler id pdata timeSensitive)).Punctual := by
  rw [step, MessageQueue.post]
  split
  · exact ⟨h.heap, h.reading, h.due⟩
  · refine ⟨h.heap, h.reading, fun m hm => ?_⟩
    rw [done, MessageQueue.ready, ← List.append_assoc, ← List.append_assoc, List.mem_append] at hm
    obtain hm | hm := hm
    · rw [List.append_assoc] at hm
      exact h.due m hm
    · obtain rfl := List.mem_singleton.mp hm
      exact Nat.zero_le _

theorem clear (h : c.Punctual) (phandler : Option ℕ) (id : Uint32) : (c.step (.clear phandler id)).Punctual := by
  refine ⟨Heap.isHeap_makeHeap DelayedMessage.strictWeak_lt _, fun d hd => h.reading d ?_,
    fun m hm => h.due m ?_⟩
  · exact (Array.mem_filter.mp ((Heap.makeHeap_perm _).mem_iff.mp hd)).1
  · refine (List.Sublist.append_left (List.Sublist.append ?_ List.filter_sublist) _).subset hm
    rw [step, MessageQueue.clear, Option.toList_filter]
    exact List.filter_sublist

end Punctual

theorem punctual_call (c : MessageRun) (e : MessageCall) (h : c.Punctual) (hallows : c.Allows e) :
    (c.call e).Punctual := by
  cases e with
  | postAt trigger phandler id pdata => exact h.doDelayPost _ phandler id pdata trigger _
  | quit => exact ⟨h.heap, h.reading, h.due⟩
  | restart => exact ⟨h.heap, h.reading, h.due⟩
  | event e =>
    cases e with
    | post phandler id pdata timeSensitive => exact h.post phandler id pdata timeSensitive
    | postDelayed cmsDelay phandler id pdata =>
      have hafter : timeAfter (timeReading c.now) cmsDelay = timeReading (c.now + cmsDelay.toNat) := by
        conv_lhs => rw [← Int.toNat_of_nonneg hallows]
        exact timeAfter_reading
      rw [call, step, MessageQueue.postDelayed, hafter]
      exact h.doDelayPost cmsDelay phandler id pdata _ _
    | clear phandler id => exact h.clear phandler id
    | get cmsWait processIo => exact h.finish (h.served_get hallows cmsWait processIo) false
    | peek cmsWait =>
      rw [call, step]
      split
      · exact h
      · exact h.finish (h.served_get hallows cmsWait true) true
    | waited ok =>
      rw [call, step]
      split
      · exact h
      · rename_i peeking g hblocked
        exact h.finish (h.served_waited hallows g ok) peeking
    | elapse ms => exact ⟨h.heap, h.reading, fun m hm => (h.due m hm).trans (Nat.le_add_right _ _)⟩

theorem punctual_start (now : ℕ) : (start now).Punctual := ⟨Heap.isHeap_empty, nofun, nofun⟩

/-- **Delayed messages while the clock wraps**: nothing is delivered early, and all that is due is
made ready if and only if the clock does not wrap between what is due and what is not. -/
theorem dueMoved_iff (now : ℕ) (calls : List MessageCall) (hallowed : Guarded call Allows (start now) calls) :
    let c := run call (start now) calls
    (∀ m ∈ c.delivered ++ c.queue.ready, m.trigger ≤ c.now) ∧
      (c.Near →
        (∃ moved, c.examined.msgq = c.queue.msgq ++ moved ∧
          (moved ++ c.examined.waiting).Perm c.queue.waiting ∧ ∀ m ∈ moved, m.trigger ≤ c.now) ∧
        ((∀ m ∈ c.examined.waiting, c.now < m.trigger) ↔ c.NoWrap)) := by
  intro c
  have h : c.Punctual := run_invariant punctual_call (punctual_start now) hallowed
  clear_value c
  refine ⟨h.due, fun hnear => ?_⟩
  obtain ⟨moved, hswept⟩ :=
    @MessageQueue.swept_moveDue (timeReading c.now) c.queue h.heap c.queue.dmsgq.size
  have hmem {d : DelayedMessage} (hd : d ∈ c.examined.dmsgq) : d ∈ c.queue.dmsgq :=
    hswept.mem.mpr (.inr hd)
  constructor
  · refine ⟨moved.map DelayedMessage.msg, hswept.msgq, ?_, List.forall_mem_map.mpr fun d hd => ?_⟩
    · rw [MessageQueue.waiting, ← List.map_append]
      exact hswept.parts.map (·.msg)
    · have hdue := hswept.due d hd
      rw [h.isLater_iff hnear (hswept.mem.mpr (.inl hd))] at hdue
      exact Nat.not_lt.mp (of_decide_eq_false hdue)
  · have hleft : (∀ m ∈ c.examined.waiting, c.now < m.trigger) ↔
        ∀ d ∈ c.examined.dmsgq, timeIsLater (timeReading c.now) d.msTrigger = true := by
      constructor
      · intro hall d hd
        rw [h.isLater_iff hnear (hmem hd), decide_eq_true_iff]
        exact hall d.msg (MessageQueue.mem_waiting.mpr ⟨d, hd, rfl⟩)
      · intro hall m hm
        obtain ⟨d, hd, rfl⟩ := MessageQueue.mem_waiting.mp hm
        have hlater := hall d hd
        rwa [h.isLater_iff hnear (hmem hd), decide_eq_true_iff] at hlater
    rw [hleft, examined, MessageQueue.allMoved_iff h.heap]
    exact h.readings_iff hnear

instance (c : MessageRun) : (e : MessageCall) → Decidable (c.Allows e)
  | .event (.postDelayed cmsDelay _ _ _) => inferInstanceAs (Decidable (0 ≤ cmsDelay))
  | .event (.get _ _) | .event (.peek _) | .event (.waited _) => inferInstanceAs (Decidable c.Near)
  | .event (.post _ _ _ _) | .event (.clear _ _) | .event (.elapse _) | .postAt _ _ _ _ | .quit
  | .restart => isTrue trivial

def aroundWrap : List MessageCall :=
  [.event (.postDelayed 2 (some 1) 7 none), .event (.postDelayed 26 (some 2) 8 none),
    .event (.elapse 6)]

/-- From 10 ms before the clock wraps: a message that is due stays behind one that is not. -/
theorem due_left_behind :
    let c := run call (start (2 ^ 32 - 10)) aroundWrap
    Guarded call Allows (start (2 ^ 32 - 10)) aroundWrap ∧ c.Near ∧
      (c.queue.get (timeReading c.now) kForever true).1 =
        .waiting ⟨kForever, true, timeReading c.now, 20⟩ ∧
      ∃ m ∈ c.examined.waiting, m.trigger + 4 = c.now := by
  decide

/-- From 50 ms before the clock wraps, the first message is moved. -/
theorem dueMoved_iff_before :
    let c := run call (start (2 ^ 32 - 50)) aroundWrap
    (∀ m ∈ c.delivered ++ c.queue.ready, m.trigger ≤ c.now) ∧ c.examined.msgq.length = 1 ∧
      ∀ m ∈ c.examined.waiting, c.now < m.trigger := by
  intro c
  obtain ⟨hdue, hmoved⟩ := dueMoved_iff (2 ^ 32 - 50) aroundWrap (by decide)
  exact ⟨hdue, by decide, (hmoved (by decide)).2.mpr (by decide)⟩

end MessageRun

end Libjingle
