import Libjingle.Lib.Heap
import Libjingle.Base.Time

/-!
# `MessageQueue` (`base/messagequeue.{h,cc}`)

Main results: **`moveDue_keeps`**, **`moveDue_top`**.

Logging, locking and waking up the socket server are left out, and `ReceiveSends`, which does nothing
here. Handlers and data are known by numbers, `none` is `NULL`.
-/

namespace Libjingle

open Lib

/-- The post a message comes from, and the time at which it is due. -/
structure Label where
  serial : ℕ
  trigger : Option ℕ
  deriving DecidableEq

/-- `Message`, with a label that tells the run when it was posted. -/
structure Message where
  phandler : Option ℕ
  messageId : Uint32
  pdata : Option ℕ
  tsSensitive : Uint32
  label : Label
  deriving DecidableEq

/-- `MQID_ANY`. -/
def mqidAny : Uint32 := BitVec.ofInt 32 (-1)
/-- `MQID_DISPOSE`. -/
def mqidDispose : Uint32 := BitVec.ofInt 32 (-2)
def kMaxMsgLatency : Uint32 := 150
def kForever : ℤ := -1

def Message.isMatch (m : Message) (handler : Option ℕ) (id : Uint32) : Bool :=
  (handler == none || handler == m.phandler) && (id == mqidAny || id == m.messageId)

/-- `DelayedMessage`: a message with its delay, the time it is due, and its number. -/
structure DelayedMessage where
  cmsDelay : ℤ
  msTrigger : Uint32
  num : Uint32
  msg : Message
  deriving DecidableEq

/-- `operator<`. -/
def DelayedMessage.lt (a b : DelayedMessage) : Bool :=
  decide (b.msTrigger < a.msTrigger) || (b.msTrigger == a.msTrigger && decide (b.num < a.num))

theorem DelayedMessage.strictWeak_lt : Heap.StrictWeak DelayedMessage.lt := by
  constructor
  · intro a b h
    simp only [lt, BitVec.lt_def, Bool.or_eq_true, Bool.and_eq_true, decide_eq_true_eq, beq_iff_eq,
      Bool.or_eq_false_iff, Bool.and_eq_false_iff, decide_eq_false_iff_not, beq_eq_false_iff_ne, ne_eq,
      ← BitVec.toNat_inj] at h ⊢
    omega
  · intro a b c hab hbc
    simp only [lt, BitVec.lt_def, Bool.or_eq_false_iff, Bool.and_eq_false_iff, decide_eq_false_iff_not,
      beq_eq_false_iff_ne, ne_eq, ← BitVec.toNat_inj] at hab hbc ⊢
    omega

/-- The queue. `msgPeek` is what `Peek` holds, while `fPeekKeep_`. -/
structure MessageQueue where
  fStop : Bool := false
  msgPeek : Option Message := none
  msgq : List Message := []
  dmsgq : Array DelayedMessage := #[]
  dmsgqNextNum : Uint32 := 0
  deriving DecidableEq

/-- A `Get` that waits: its arguments, the time of the call, and the time it asks for. -/
structure Getting where
  cmsWait : ℤ
  processIo : Bool
  msStart : Uint32
  cmsNext : ℤ
  deriving DecidableEq

/-- How far a `Get` has come: it returned a message, it waits, or it returned false. -/
inductive GetOutcome
  | message (m : Message)
  | waiting (g : Getting)
  | nothing
  deriving DecidableEq

namespace MessageQueue

def postedMessage (now : Uint32) (phandler : Option ℕ) (id : Uint32) (pdata : Option ℕ)
    (timeSensitive : Bool) (label : Label) : Message :=
  ⟨phandler, id, pdata, if timeSensitive then now + kMaxMsgLatency else 0, label⟩

/-- `Post`: at the end of `msgq_`, unless the queue has stopped. -/
def post (q : MessageQueue) (now : Uint32) (phandler : Option ℕ) (id : Uint32) (pdata : Option ℕ)
    (timeSensitive : Bool) (label : Label) : MessageQueue :=
  if q.fStop then q
  else { q with msgq := q.msgq ++ [postedMessage now phandler id pdata timeSensitive label] }

/-- `DoDelayPost`: into the heap `dmsgq_`, with the next number. -/
def doDelayPost (q : MessageQueue) (cmsDelay : ℤ) (tstamp : Uint32) (phandler : Option ℕ) (id : Uint32)
    (pdata : Option ℕ) (label : Label) : MessageQueue :=
  if q.fStop then q
  else
    { q with
      dmsgq := Heap.push DelayedMessage.lt q.dmsgq
        ⟨cmsDelay, tstamp, q.dmsgqNextNum, ⟨phandler, id, pdata, 0, label⟩⟩
      dmsgqNextNum := q.dmsgqNextNum + 1 }

def postDelayed (q : MessageQueue) (now : Uint32) (cmsDelay : ℤ) (phandler : Option ℕ) (id : Uint32)
    (pdata : Option ℕ) (label : Label) : MessageQueue :=
  q.doDelayPost cmsDelay (timeAfter now cmsDelay) phandler id pdata label

/-- `Clear`, with what it puts into `removed` or deletes. -/
def clear (q : MessageQueue) (phandler : Option ℕ) (id : Uint32) : List Message × MessageQueue :=
  (q.msgPeek.toList.filter (·.isMatch phandler id) ++ q.msgq.filter (·.isMatch phandler id) ++
      (q.dmsgq.toList.map (·.msg)).filter (·.isMatch phandler id),
    { q with
      msgPeek := q.msgPeek.filter (!·.isMatch phandler id)
      msgq := q.msgq.filter (!·.isMatch phandler id)
      dmsgq := Heap.makeHeap DelayedMessage.lt (q.dmsgq.filter (!·.msg.isMatch phandler id)) })

def moveDue : ℕ → Uint32 → MessageQueue → ℤ × MessageQueue
  | 0, _, q => (kForever, q)
  | fuel + 1, msCurrent, q =>
    match q.dmsgq[0]? with
    | none => (kForever, q)
    | some top =>
      if timeIsLater msCurrent top.msTrigger then (timeDiff top.msTrigger msCurrent, q)
      else
        moveDue fuel msCurrent
          { q with msgq := q.msgq ++ [top.msg], dmsgq := Heap.pop DelayedMessage.lt q.dmsgq }

def takePosted : List Message → Option (Message × List Message)
  | [] => none
  | m :: rest => if m.messageId = mqidDispose then takePosted rest else some (m, rest)

def nextWait (cmsWait cmsDelayNext cmsElapsed : ℤ) : ℤ :=
  if cmsWait = kForever then cmsDelayNext
  else
    let cmsNext := max 0 (cmsWait - cmsElapsed)
    if cmsDelayNext ≠ kForever ∧ cmsDelayNext < cmsNext then cmsDelayNext else cmsNext

/-- One round of the loop of `Get`, up to `Wait`. -/
def pass (q : MessageQueue) (g : Getting) (msCurrent : Uint32) (cmsElapsed : ℤ) :
    GetOutcome × MessageQueue :=
  let r := moveDue q.dmsgq.size msCurrent q
  match takePosted r.2.msgq with
  | some (m, rest) => (.message m, { r.2 with msgq := rest })
  | none =>
    let q' := { r.2 with msgq := [] }
    if q'.fStop then (.nothing, q')
    else (.waiting { g with cmsNext := nextWait g.cmsWait r.1 cmsElapsed }, q')

/-- `Get`, up to the first call of `Wait`. -/
def get (q : MessageQueue) (now : Uint32) (cmsWait : ℤ) (processIo : Bool) : GetOutcome × MessageQueue :=
  match q.msgPeek with
  | some m => (.message m, { q with msgPeek := none })
  | none => q.pass ⟨cmsWait, processIo, now, 0⟩ now 0

def waited (q : MessageQueue) (g : Getting) (ok : Bool) (now : Uint32) : GetOutcome × MessageQueue :=
  if !ok then (.nothing, q)
  else
    let cmsElapsed := timeDiff now g.msStart
    if g.cmsWait ≠ kForever ∧ g.cmsWait ≤ cmsElapsed then (.nothing, q)
    else q.pass g now cmsElapsed

/-! ## What the loops do -/

def moveTop (q : MessageQueue) (top : DelayedMessage) : MessageQueue :=
  { q with msgq := q.msgq ++ [top.msg], dmsgq := Heap.pop DelayedMessage.lt q.dmsgq }

theorem size_pop_dmsgq (xs : Array DelayedMessage) : (Heap.pop DelayedMessage.lt xs).size = xs.size - 1 := by
  rw [Heap.pop, Heap.size_siftDown]
  exact Heap.size_unrooted xs

/-- The loop keeps what moving the top keeps. -/
theorem moveDue_keeps {I : MessageQueue → Prop} {msCurrent : Uint32}
    (hmove : ∀ q top, I q → q.dmsgq[0]? = some top → timeIsLater msCurrent top.msTrigger = false →
      I (q.moveTop top)) (fuel : ℕ) {q : MessageQueue} (h : I q) : I (moveDue fuel msCurrent q).2 := by
  induction fuel generalizing q with
  | zero => exact h
  | succ fuel ih =>
    rw [moveDue]
    split
    · exact h
    · rename_i top htop
      split
      · exact h
      · rename_i hdue
        exact ih (hmove q top h htop (Bool.eq_false_iff.mpr hdue))

/-- No message that is due is left on top. -/
theorem moveDue_top (fuel : ℕ) (msCurrent : Uint32) {q : MessageQueue} (hfuel : q.dmsgq.size ≤ fuel)
    {top : DelayedMessage} (htop : (moveDue fuel msCurrent q).2.dmsgq[0]? = some top) :
    timeIsLater msCurrent top.msTrigger = true := by
  induction fuel generalizing q with
  | zero =>
    rw [moveDue, Array.getElem?_eq_none (by omega)] at htop
    cases htop
  | succ fuel ih =>
    rw [moveDue] at htop
    split at htop
    · rename_i hnone
      rw [hnone] at htop
      cases htop
    · rename_i first hfirst
      split at htop
      · rename_i hlater
        rw [hfirst] at htop
        cases htop
        exact hlater
      · refine ih ?_ htop
        rw [size_pop_dmsgq]
        omega

/-- The first message posted, unless it is for disposal. -/
theorem takePosted_cons {m : Message} (h : m.messageId ≠ mqidDispose) (rest : List Message) :
    takePosted (m :: rest) = some (m, rest) := by
  rw [takePosted, if_neg h]

end MessageQueue

end Libjingle
