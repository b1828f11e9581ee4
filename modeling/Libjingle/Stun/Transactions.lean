import Libjingle.Stun.Requests

/-!
# STUN transactions complete at most once

Main result: **`completes_once`**.

* `Sound.call`, `Sound.delete`, `Sound.complete`, `Sound.onMessage`, `Sound.checkResponse`: the calls keep it.
-/

variable {request : StunRequest} {completion : Completion}

namespace Libjingle

open Lib

/-- The bits of a message type that are not its class. -/
def stunMethod (type : Uint16) : Uint16 := type &&& ~~~kStunTypeMask

/-- The outcome may be that of a request with this id and type. -/
def Completion.Answers (id : List Uint8) (type : Uint16) : Completion → Prop
  | .onResponse msg =>
    msg.transactionId = id ∧ msg.type &&& kStunTypeMask = 0x100 ∧ stunMethod msg.type = stunMethod type
  | .onErrorResponse msg =>
    msg.transactionId = id ∧ msg.type &&& kStunTypeMask = 0x110 ∧ stunMethod msg.type = stunMethod type
  | .onTimeout => True

theorem response_type {type : Uint16} (htype : type &&& kStunTypeMask = 0x000) {bits : Uint16}
    (hbits : bits &&& ~~~kStunTypeMask = 0) :
    (type ||| bits) &&& kStunTypeMask = bits &&& kStunTypeMask ∧ stunMethod (type ||| bits) = stunMethod type := by
  constructor
  · rw [BitVec.and_or_distrib_right, htype]
    exact BitVec.zero_or
  · rw [stunMethod, BitVec.and_or_distrib_right, hbits]
    exact BitVec.or_zero

theorem answers_success {type : Uint16} {msg : StunMessage} (h : some msg.type = getStunSuccessResponseType type) :
    (Completion.onResponse msg).Answers msg.transactionId type := by
  rw [getStunSuccessResponseType] at h
  split at h
  · rename_i hrequest
    obtain ⟨hclass, hmethod⟩ := @response_type type (of_decide_eq_true hrequest) 0x100 (by decide)
    rw [Completion.Answers, Option.some.inj h]
    exact ⟨rfl, hclass, hmethod⟩
  · cases h

theorem answers_error {type : Uint16} {msg : StunMessage} (h : some msg.type = getStunErrorResponseType type) :
    (Completion.onErrorResponse msg).Answers msg.transactionId type := by
  rw [getStunErrorResponseType] at h
  split at h
  · rename_i hrequest
    obtain ⟨hclass, hmethod⟩ := @response_type type (of_decide_eq_true hrequest) 0x110 (by decide)
    rw [Completion.Answers, Option.some.inj h]
    exact ⟨rfl, hclass, hmethod⟩
  · cases h

/-! ## Schedules -/

namespace StunRequest

/-- How often a request was sent, while it is to be sent again. -/
def sends (request : StunRequest) : ℕ :=
  match request.requestClass with
  | .connectionRequest => 0
  | _ => request.count

/-- How often a request of the class is sent. -/
def quota (request : StunRequest) : ℕ :=
  match request.requestClass with
  | .stunRequest => maxSends
  | .connectionRequest => 1
  | .allocateRequest => 5

theorem quota_le (request : StunRequest) : request.quota ≤ maxSends := by
  rw [quota]
  split <;> decide

theorem getNextDelay_sends (hsends : request.sends < request.quota) (h : request.getNextDelay.2.timeout = false) :
    request.getNextDelay.2.sends = request.sends + 1 ∧
      request.getNextDelay.2.sends < request.getNextDelay.2.quota := by
  obtain ⟨requestClass, kind, type, prepared, id, count, timeout, manager⟩ := request
  cases requestClass with
  | stunRequest =>
    have hcount : (timeout || count + 1 == maxSends) = false := h
    rw [Bool.or_eq_false_iff, beq_eq_false_iff_ne] at hcount
    have hless : count < maxSends := hsends
    exact ⟨rfl, Nat.lt_of_le_of_ne hless hcount.2⟩
  | connectionRequest => cases h
  | allocateRequest =>
    have hcount : (timeout || count + 1 == 5) = false := h
    rw [Bool.or_eq_false_iff, beq_eq_false_iff_ne] at hcount
    have hless : count < 5 := hsends
    exact ⟨rfl, Nat.lt_of_le_of_ne hless hcount.2⟩

theorem getNextDelay_timeout (h : request.getNextDelay.2.timeout = false) : request.timeout = false := by
  obtain ⟨requestClass, kind, type, prepared, id, count, timeout, manager⟩ := request
  cases requestClass with
  | stunRequest => exact (Bool.or_eq_false_iff.mp h).1
  | connectionRequest => cases h
  | allocateRequest => exact (Bool.or_eq_false_iff.mp h).1

theorem getNextDelay_fields (request : StunRequest) : ∃ count timeout,
    request.getNextDelay.2 = { request with count := count, timeout := timeout } := by
  obtain ⟨requestClass, kind, type, prepared, id, count, timeout, manager⟩ := request
  cases requestClass <;> exact ⟨_, _, rfl⟩

theorem construct_fields (request : StunRequest) : ∃ type,
    request.construct = { request with type := type } := by
  rw [construct]
  split
  · exact ⟨_, rfl⟩
  · exact ⟨_, rfl⟩

end StunRequest

/-! ## The record -/

/-- The request is in `requests_`. -/
def Live (log : List RequestNote) (r : ℕ) (id : List Uint8) (type : Uint16) : Prop :=
  .queued r id type ∈ log ∧ .removed r ∉ log

/-- The request is under way and was told no outcome. -/
def Pending (log : List RequestNote) (r : ℕ) (id : List Uint8) (type : Uint16) : Prop :=
  Live log r id type ∧ ∀ completion, .told r completion ∉ log

/-- The entry may follow the log. -/
def Allowed (log : List RequestNote) : RequestNote → Prop
  | .queued r id _ =>
    (∀ id' type', .queued r id' type' ∉ log) ∧ ∀ r' type', ¬Live log r' id type'
  | .sent r => (∃ id type, Pending log r id type) ∧ log.count (.sent r) < maxSends
  | .told r completion => ∃ id type, Pending log r id type ∧ completion.Answers id type
  | .removed r => ∃ id type, Live log r id type

section Record

variable {log : List RequestNote} {r r' : ℕ} {id id' : List Uint8} {type type' : Uint16}

theorem live_queued (h : .removed r' ∉ log) : Live (log ++ [.queued r' id' type']) r id type ↔
    Live log r id type ∨ (r, id, type) = (r', id', type') := by
  simp only [Live, List.mem_append, List.mem_singleton, RequestNote.queued.injEq, reduceCtorEq, or_false,
    Prod.mk.injEq]
  constructor
  · rintro ⟨hq | hq, hr⟩
    · exact .inl ⟨hq, hr⟩
    · exact .inr hq
  · rintro (⟨hq, hr⟩ | ⟨rfl, rfl, rfl⟩)
    · exact ⟨.inl hq, hr⟩
    · exact ⟨.inr ⟨rfl, rfl, rfl⟩, h⟩

theorem live_sent : Live (log ++ [.sent r']) r id type ↔ Live log r id type := by
  simp [Live]

theorem live_told : Live (log ++ [.told r' completion]) r id type ↔ Live log r id type := by
  simp [Live]

theorem live_removed : Live (log ++ [.removed r']) r id type ↔ Live log r id type ∧ r ≠ r' := by
  simp only [Live, List.mem_append, List.mem_singleton, reduceCtorEq, or_false, RequestNote.removed.injEq,
    not_or, and_assoc]

end Record

/-! ## The invariant -/

/-- What a manager is doing between two steps. -/
inductive Phase where
  | idle
  | sending (r : ℕ)
  | telling (r : ℕ)
  deriving DecidableEq

namespace StunRequestManager

/-- The log is lawful, and the manager holds the requests that are under way in it. -/
structure Sound (phase : Phase) (c : StunRequestManager) : Prop where
  keys : (c.requests.map Prod.fst).Nodup
  entries : ∀ id r, (id, r) ∈ c.requests ↔ ∃ type, Live c.log r id type
  alive : ∀ r id type, Live c.log r id type →
    ∃ request ∈ c.objects r, request.transactionId = id ∧ request.type = type ∧ request.manager = true
  made : ∀ r, ∀ request ∈ c.objects r, r < c.made
  queued : ∀ r id type, .queued r id type ∈ c.log →
    r < c.made ∧ ∀ request ∈ c.objects r, request.manager = true
  told : ∀ r completion, .told r completion ∈ c.log → .removed r ∈ c.log ∨ phase = .telling r
  quota : ∀ r, ∀ request ∈ c.objects r, request.timeout = false →
    c.log.count (.sent r) ≤ request.sends + (if phase = .sending r then 1 else 0) ∧
      request.sends < request.quota
  lawful : Lawful Allowed c.log
  messages : ∀ m ∈ c.messages, ∃ id type, Live c.log m.1 id type

theorem mem_update {objects : ℕ → Option StunRequest} {r r' : ℕ} {o : Option StunRequest} : request ∈ Function.update objects r o r' ↔
      r' = r ∧ request ∈ o ∨ r' ≠ r ∧ request ∈ objects r' := by
  by_cases heq : r' = r
  · subst heq
    simp
  · simp [heq]

namespace Sound

variable {c : StunRequestManager} {phase : Phase} {r : ℕ} {id : List Uint8} {type : Uint16}

theorem find_iff (h : c.Sound phase) : c.find id = some r ↔ (id, r) ∈ c.requests := by
  have hkeys := h.keys
  rw [find]
  generalize c.requests = requests at hkeys ⊢
  induction requests with
  | nil => simp
  | cons e requests ih =>
    obtain ⟨key, value⟩ := e
    rw [List.map_cons, List.nodup_cons] at hkeys
    rw [List.lookup_cons, List.mem_cons, Prod.mk.injEq]
    split
    · rename_i heq
      obtain rfl := beq_iff_eq.mp heq
      have hnot : (id, r) ∉ requests := fun hmem => hkeys.1 (List.mem_map.mpr ⟨_, hmem, rfl⟩)
      simp [hnot, eq_comm]
    · rename_i hne
      have hne' : id ≠ key := beq_eq_false_iff_ne.mp hne
      simp [hne', ih hkeys.2]

theorem find_of_live (h : c.Sound phase) (hlive : Live c.log r id type) : c.find id = some r :=
  h.find_iff.mpr ((h.entries id r).mpr ⟨type, hlive⟩)

theorem queued_of_mem (h : c.Sound phase) {n : RequestNote} (hn : n ∈ c.log)
    (hr : n = .sent r ∨ n = .removed r ∨ ∃ completion, n = .told r completion) :
    ∃ id type, .queued r id type ∈ c.log := by
  obtain ⟨pre, hsub, hallowed⟩ := h.lawful.exists_allowed hn
  obtain rfl | rfl | ⟨completion, rfl⟩ := hr
  · obtain ⟨⟨id, type, hpending⟩, -⟩ := hallowed
    exact ⟨id, type, hsub hpending.1.1⟩
  · obtain ⟨id, type, hlive⟩ := hallowed
    exact ⟨id, type, hsub hlive.1⟩
  · obtain ⟨id, type, hpending, -⟩ := hallowed
    exact ⟨id, type, hsub hpending.1.1⟩

theorem pending_of_live (h : c.Sound .idle) (hlive : Live c.log r id type) : Pending c.log r id type := by
  refine ⟨hlive, fun completion htold => ?_⟩
  cases h.told r completion htold with
  | inl hremoved => exact hlive.2 hremoved
  | inr hphase => cases hphase

theorem removable (h : c.Sound phase) (hlive : Live c.log r id type) : c.Removable r := by
  obtain ⟨request, hrequest, hid, -, hmanager⟩ := h.alive r id type hlive
  refine ⟨request, hrequest, hmanager, fun r' hr' => ?_⟩
  rw [hid, h.find_of_live hlive] at hr'
  exact (Option.some.inj hr').symm

/-! ### Handlers -/

theorem new (h : c.Sound phase) (requestClass : RequestClass) (kind : MessageClass)
    (type prepared : Uint16) (transactionId : List Uint8) :
    (c.new requestClass kind type prepared transactionId).Sound phase := by
  have hnew {r : ℕ} {request : StunRequest}
      (hr : request ∈ (c.new requestClass kind type prepared transactionId).objects r) :
      r = c.made ∧ request = ⟨requestClass, kind, type, prepared, transactionId, 0, false, false⟩ ∨
        request ∈ c.objects r :=
    (mem_update.mp hr).imp (fun hr => ⟨hr.1, (Option.mem_some.mp hr.2).symm⟩) And.right
  have hunheard : ∀ id type, .queued c.made id type ∉ c.log := fun id type hq =>
    absurd (h.queued _ id type hq).1 (lt_irrefl _)
  refine ⟨h.keys, h.entries, fun r id type hlive => ?_, fun r request hr => ?_, fun r id type hq => ?_,
    h.told, fun r request hr htimeout => ?_, h.lawful, h.messages⟩
  · have hne : r ≠ c.made := by
      rintro rfl
      exact hunheard id type hlive.1
    obtain ⟨request, hrequest, hfields⟩ := h.alive r id type hlive
    exact ⟨request, mem_update.mpr (.inr ⟨hne, hrequest⟩), hfields⟩
  · obtain ⟨rfl, -⟩ | hold := hnew hr
    · exact Nat.lt_succ_self _
    · exact (h.made r request hold).trans (Nat.lt_succ_self _)
  · refine ⟨(h.queued r id type hq).1.trans (Nat.lt_succ_self _), fun request hr => ?_⟩
    obtain ⟨rfl, -⟩ | hold := hnew hr
    · exact absurd hq (hunheard id type)
    · exact (h.queued r id type hq).2 request hold
  · obtain ⟨rfl, rfl⟩ | hold := hnew hr
    · have hcount : c.log.count (.sent c.made) = 0 := List.count_eq_zero.mpr fun hsent => by
        obtain ⟨id, type, hq⟩ := h.queued_of_mem hsent (.inl rfl)
        exact hunheard id type hq
      constructor
      · exact le_of_eq_of_le hcount (Nat.zero_le _)
      · cases requestClass <;> exact Nat.zero_lt_succ _
    · exact h.quota r request hold htimeout

theorem sendDelayed (h : c.Sound phase) {delay : ℤ} (hs : c.Sendable (.sendDelayed r delay)) :
    (c.sendDelayed r delay).Sound phase ∧
      ∀ r' id type, Live c.log r' id type → Live (c.sendDelayed r delay).log r' id type := by
  obtain ⟨request, hrequest, hmanager, hfind⟩ := hs
  obtain ⟨type', hconstruct⟩ := { request with manager := true }.construct_fields
  have heq : c.sendDelayed r delay = { c with
      objects := Function.update c.objects r (some { request with manager := true, type := type' })
      requests := store c.requests request.transactionId r
      messages := c.messages ++ [(r, delay)]
      log := c.log ++ [.queued r request.transactionId type'] } := by
    have hr : c.objects r = some request := hrequest
    rw [StunRequestManager.sendDelayed, hr]
    dsimp only
    rw [hconstruct]
  have hunheard : ∀ id type, .queued r id type ∉ c.log := fun id type hq => by
    rw [(h.queued r id type hq).2 request hrequest] at hmanager
    cases hmanager
  have hkept : .removed r ∉ c.log := fun hremoved => by
    obtain ⟨id, type, hq⟩ := h.queued_of_mem hremoved (.inr (.inl rfl))
    exact hunheard id type hq
  have hunused : ∀ r' type, ¬Live c.log r' request.transactionId type := fun r' type hlive => by
    rw [h.find_of_live hlive] at hfind
    cases hfind
  have hnokey : request.transactionId ∉ c.requests.map Prod.fst := fun hkey => by
    obtain ⟨⟨id, r'⟩, hmem, rfl⟩ := List.mem_map.mp hkey
    obtain ⟨type, hlive⟩ := (h.entries _ _).mp hmem
    exact hunused r' type hlive
  have hstore : store c.requests request.transactionId r =
      c.requests ++ [(request.transactionId, r)] := by
    rw [store, List.filter_eq_self.mpr]
    intro e he
    exact decide_eq_true fun heq => hnokey (heq ▸ List.mem_map_of_mem he)
  have hlive' {r' : ℕ} {id : List Uint8} {type : Uint16} :=
    @live_queued c.log r' r id request.transactionId type type' hkept
  rw [heq, hstore]
  refine ⟨⟨?_, fun id r' => ?_, fun r' id type hl => ?_, fun r' request' hr' => ?_,
    fun r' id type hq => ?_, fun r' completion htold => ?_, fun r' request' hr' htimeout => ?_, ?_,
    fun m hm => ?_⟩, fun r' id type hl => hlive'.mpr (.inl hl)⟩
  · rw [List.map_append]
    refine List.Nodup.append h.keys (List.nodup_singleton _) (List.disjoint_singleton.mpr hnokey)
  · rw [List.mem_append, h.entries, List.mem_singleton]
    simp only [hlive', exists_or, Prod.mk.injEq, ← and_assoc, exists_and_left, exists_eq, and_true]
    rw [and_comm (a := id = _)]
  · by_cases hr : r' = r
    · subst hr
      have hthis := (hlive'.mp hl).resolve_left fun hold => hunheard id type hold.1
      cases hthis
      exact ⟨_, mem_update.mpr (.inl ⟨rfl, rfl⟩), rfl, rfl, rfl⟩
    · have hold := (hlive'.mp hl).resolve_right fun heq => hr (congrArg Prod.fst heq)
      obtain ⟨request', hrequest', hfields⟩ := h.alive r' id type hold
      exact ⟨request', mem_update.mpr (.inr ⟨hr, hrequest'⟩), hfields⟩
  · obtain ⟨rfl, -⟩ | ⟨-, hold⟩ := mem_update.mp hr'
    · exact h.made r' request hrequest
    · exact h.made r' request' hold
  · by_cases hr : r' = r
    · subst hr
      refine ⟨h.made r' request hrequest, fun request' hr' => ?_⟩
      obtain ⟨-, hnew⟩ | ⟨hne, -⟩ := mem_update.mp hr'
      · cases hnew
        rfl
      · exact absurd rfl hne
    · have hold : .queued r' id type ∈ c.log :=
        (List.mem_append.mp hq).resolve_right fun heq => by
          cases List.mem_singleton.mp heq
          exact hr rfl
      refine ⟨(h.queued r' id type hold).1, fun request' hr' => ?_⟩
      exact (h.queued r' id type hold).2 request' ((mem_update.mp hr').resolve_left fun hn => hr hn.1).2
  · have hold : .told r' completion ∈ c.log :=
      (List.mem_append.mp htold).resolve_right fun heq => by cases List.mem_singleton.mp heq
    exact (h.told r' completion hold).imp_left (List.mem_append_left _)
  · have hcount : (c.log ++ [RequestNote.queued r request.transactionId type']).count (.sent r') =
        c.log.count (.sent r') := by
      rw [List.count_append, List.count_singleton]
      rfl
    rw [hcount]
    obtain ⟨rfl, hnew⟩ | ⟨-, hold⟩ := mem_update.mp hr'
    · cases hnew
      exact h.quota r' request hrequest htimeout
    · exact h.quota r' request' hold htimeout
  · exact lawful_append_singleton.mpr ⟨h.lawful, hunheard, hunused⟩
  · obtain hold | hnew := List.mem_append.mp hm
    · obtain ⟨id, type, hl⟩ := h.messages m hold
      exact ⟨id, type, hlive'.mpr (.inl hl)⟩
    · obtain rfl := List.mem_singleton.mp hnew
      exact ⟨_, _, hlive'.mpr (.inr rfl)⟩

/-- A call by a handler. -/
theorem call (h : c.Sound phase) {e : HandlerCall} (hs : c.Sendable e) :
    (c.call e).Sound phase ∧
      ∀ r id type, Live c.log r id type → Live (c.call e).log r id type := by
  cases e with
  | new requestClass kind type prepared transactionId =>
    exact ⟨h.new requestClass kind type prepared transactionId, fun _ _ _ => id⟩
  | sendDelayed r delay => exact h.sendDelayed hs

theorem guarded_of_eq {c' : StunRequestManager} {calls : List HandlerCall}
    (hguarded : Guarded StunRequestManager.call Sendable c calls) (hmade : c'.made = c.made)
    (hobjects : c'.objects = c.objects) (hrequests : c'.requests = c.requests) :
    Guarded StunRequestManager.call Sendable c' calls := by
  induction calls generalizing c c' with
  | nil => trivial
  | cons e calls ih =>
    obtain ⟨he, hrest⟩ := hguarded
    have hsame : (c'.call e).made = (c.call e).made ∧ (c'.call e).objects = (c.call e).objects ∧
        (c'.call e).requests = (c.call e).requests := by
      cases e with
      | new requestClass kind type prepared transactionId =>
        simp [StunRequestManager.call, StunRequestManager.new, hmade, hobjects, hrequests]
      | sendDelayed r delay =>
        simp only [StunRequestManager.call, StunRequestManager.sendDelayed, hobjects]
        cases c.objects r with
        | none => exact ⟨hmade, hobjects, hrequests⟩
        | some request => simp [hmade, hrequests]
    have he' : c'.Sendable e := by
      cases e with
      | new requestClass kind type prepared transactionId => trivial
      | sendDelayed r delay => simpa only [Sendable, find, hobjects, hrequests] using he
    exact ⟨he', ih hrest hsame.1 hsame.2.1 hsame.2.2⟩

theorem calls (h : c.Sound phase) {calls : List HandlerCall}
    (hguarded : Guarded StunRequestManager.call Sendable c calls) :
    (run StunRequestManager.call c calls).Sound phase ∧
      ∀ r id type, Live c.log r id type → Live (run StunRequestManager.call c calls).log r id type := by
  have hstep (c' : StunRequestManager) (e : HandlerCall)
      (hc' : c'.Sound phase ∧ ∀ r id type, Live c.log r id type → Live c'.log r id type)
      (he : c'.Sendable e) : (c'.call e).Sound phase ∧
        ∀ r id type, Live c.log r id type → Live (c'.call e).log r id type := by
    obtain ⟨hsound, hlive⟩ := hc'.1.call he
    exact ⟨hsound, fun r id type hl => hlive r id type (hc'.2 r id type hl)⟩
  exact run_invariant hstep ⟨h, fun _ _ _ => id⟩ hguarded

/-! ### Sending and telling -/

theorem sent (h : c.Sound .idle) (hlive : Live c.log r id type)
    (hrequest : request ∈ c.objects r) (htimeout : request.timeout = false) :
    (c.note (.sent r)).Sound (.sending r) := by
  obtain ⟨hcount, hquota⟩ := h.quota r request hrequest htimeout
  refine ⟨h.keys, fun id r' => ?_, fun r' id type hl => h.alive r' id type (live_sent.mp hl), h.made,
    fun r' id type hq => h.queued r' id type ?_, fun r' completion htold => ?_,
    fun r' request' hr' htimeout' => ?_, ?_, fun m hm => ?_⟩
  · rw [note, h.entries]
    simp only [live_sent]
  · exact (List.mem_append.mp hq).resolve_right fun heq => by cases List.mem_singleton.mp heq
  · have hold : .told r' completion ∈ c.log :=
      (List.mem_append.mp htold).resolve_right fun heq => by cases List.mem_singleton.mp heq
    cases h.told r' completion hold with
    | inl hremoved => exact .inl (List.mem_append_left _ hremoved)
    | inr hphase => cases hphase
  · obtain ⟨hcount', hquota'⟩ := h.quota r' request' hr' htimeout'
    refine ⟨?_, hquota'⟩
    rw [note, List.count_append, List.count_singleton]
    by_cases heq : r' = r
    · subst heq
      simpa using hcount'
    · have hne : ¬ r = r' := fun h => heq h.symm
      simpa [hne] using hcount'
  · refine lawful_append_singleton.mpr ⟨h.lawful, ⟨id, type, h.pending_of_live hlive⟩, ?_⟩
    have hle := request.quota_le
    simp only [reduceCtorEq, if_false] at hcount
    omega
  · obtain ⟨id, type, hl⟩ := h.messages m hm
    exact ⟨id, type, live_sent.mpr hl⟩

theorem tell (h : c.Sound .idle) (hlive : Live c.log r id type)
    (hanswers : completion.Answers id type) : (c.note (.told r completion)).Sound (.telling r) := by
  refine ⟨h.keys, fun id r' => ?_, fun r' id type hl => h.alive r' id type (live_told.mp hl), h.made,
    fun r' id type hq => h.queued r' id type ?_, fun r' completion' htold => ?_,
    fun r' request' hr' htimeout' => ?_, ?_, fun m hm => ?_⟩
  · rw [note, h.entries]
    simp only [live_told]
  · exact (List.mem_append.mp hq).resolve_right fun heq => by cases List.mem_singleton.mp heq
  · obtain hold | hnew := List.mem_append.mp htold
    · cases h.told r' completion' hold with
      | inl hremoved => exact .inl (List.mem_append_left _ hremoved)
      | inr hphase => cases hphase
    · cases List.mem_singleton.mp hnew
      exact .inr rfl
  · rw [note, List.count_append, List.count_singleton]
    exact h.quota r' request' hr' htimeout'
  · exact lawful_append_singleton.mpr ⟨h.lawful, id, type, h.pending_of_live hlive, hanswers⟩
  · obtain ⟨id, type, hl⟩ := h.messages m hm
    exact ⟨id, type, live_told.mpr hl⟩

theorem sendAgain (h : c.Sound (.sending r)) (hlive : Live c.log r id type) : (c.sendAgain r).Sound .idle := by
  obtain ⟨request, hrequest, -⟩ := h.alive r id type hlive
  obtain ⟨count, timeout, hfields⟩ := request.getNextDelay_fields
  have hr : c.objects r = some request := hrequest
  rw [StunRequestManager.sendAgain, hr]
  dsimp only
  have hold {r' : ℕ} {request' : StunRequest}
      (hr' : request' ∈ Function.update c.objects r (some request.getNextDelay.2) r') :
      ∃ request'' ∈ c.objects r', request''.manager = request'.manager := by
    obtain ⟨rfl, hnew⟩ | ⟨-, hold⟩ := mem_update.mp hr'
    · cases hnew
      exact ⟨request, hrequest, by rw [hfields]⟩
    · exact ⟨request', hold, rfl⟩
  refine ⟨h.keys, h.entries, fun r' id type hl => ?_, fun r' request' hr' => ?_, fun r' id type hq => ?_,
    fun r' completion htold => ?_, fun r' request' hr' htimeout => ?_, h.lawful, fun m hm => ?_⟩
  · obtain ⟨request', hrequest', hid, htype, hmanager⟩ := h.alive r' id type hl
    by_cases heq : r' = r
    · subst heq
      cases hr.symm.trans hrequest'
      refine ⟨_, mem_update.mpr (.inl ⟨rfl, rfl⟩), ?_⟩
      rw [hfields]
      exact ⟨hid, htype, hmanager⟩
    · exact ⟨request', mem_update.mpr (.inr ⟨heq, hrequest'⟩), hid, htype, hmanager⟩
  · obtain ⟨request'', hrequest'', -⟩ := hold hr'
    exact h.made r' request'' hrequest''
  · refine ⟨(h.queued r' id type hq).1, fun request' hr' => ?_⟩
    obtain ⟨request'', hrequest'', hmanager⟩ := hold hr'
    exact hmanager ▸ (h.queued r' id type hq).2 request'' hrequest''
  · exact (h.told r' completion htold).imp_right fun hphase => by cases hphase
  · obtain ⟨rfl, hnew⟩ | ⟨hne, hold⟩ := mem_update.mp hr'
    · cases hnew
      obtain ⟨hcount, hquota⟩ := h.quota r' request hrequest (StunRequest.getNextDelay_timeout htimeout)
      obtain ⟨hsends, hless⟩ := StunRequest.getNextDelay_sends hquota htimeout
      rw [if_pos rfl] at hcount
      exact ⟨hsends ▸ hcount, hless⟩
    · have hphase : ¬ Phase.sending r = Phase.sending r' := fun heq => hne (Phase.sending.inj heq).symm
      have hquota := h.quota r' request' hold htimeout
      rw [if_neg hphase] at hquota
      exact hquota
  · obtain hold | hnew := List.mem_append.mp hm
    · exact h.messages m hold
    · cases List.mem_singleton.mp hnew
      exact ⟨id, type, hlive⟩

/-! ### Removing -/

theorem remove_cases (h : c.Sound phase) (hr : c.Removable r) :
    (¬∃ id type, Live c.log r id type) ∧ c.remove r = c ∨
      ∃ id type, Live c.log r id type ∧ c.remove r =
        ({ c with requests := c.requests.filter (·.1 ≠ id) }.clearMessages r).note (.removed r) := by
  obtain ⟨request, hrequest, -, hown⟩ := hr
  have hobjects : c.objects r = some request := hrequest
  rw [StunRequestManager.remove, hobjects]
  dsimp only
  cases hfind : c.find request.transactionId with
  | none =>
    refine .inl ⟨?_, rfl⟩
    rintro ⟨id, type, hlive⟩
    obtain ⟨request', hrequest', hid, -⟩ := h.alive r id type hlive
    cases hobjects.symm.trans hrequest'
    rw [hid, h.find_of_live hlive] at hfind
    cases hfind
  | some r' =>
    obtain rfl := hown r' hfind
    obtain ⟨type, hlive⟩ := (h.entries _ _).mp (h.find_iff.mp hfind)
    exact .inr ⟨request.transactionId, type, hlive, rfl⟩

theorem removed (h : c.Sound phase) (hlive : Live c.log r id type) (hphase : phase = .idle ∨ phase = .telling r) :
    (({ c with requests := c.requests.filter (·.1 ≠ id) }.clearMessages r).note (.removed r)).Sound .idle := by
  refine ⟨(List.filter_sublist.map Prod.fst).nodup h.keys, fun id' r' => ?_,
    fun r' id' type' hl => h.alive r' id' type' (live_removed.mp hl).1, h.made,
    fun r' id' type' hq => h.queued r' id' type' ?_, fun r' completion htold => ?_,
    fun r' request' hr' htimeout => ?_, ?_, fun m hm => ?_⟩
  · have hkey (hmem : (id', r') ∈ c.requests) : id' ≠ id ↔ r' ≠ r := by
      have hfind := h.find_of_live hlive
      obtain ⟨type', hlive'⟩ := (h.entries _ _).mp hmem
      constructor
      · rintro hne rfl
        obtain ⟨request, hrequest, hid, -⟩ := h.alive r' id type hlive
        obtain ⟨request', hrequest', hid', -⟩ := h.alive r' id' type' hlive'
        cases (show c.objects r' = some request from hrequest).symm.trans hrequest'
        exact hne (hid'.symm.trans hid)
      · rintro hne rfl
        exact hne (Option.some.inj ((h.find_iff.mpr hmem).symm.trans hfind))
    have hmem : (id', r') ∈ c.requests.filter (·.1 ≠ id) ↔ (id', r') ∈ c.requests ∧ id' ≠ id := by
      rw [List.mem_filter, decide_eq_true_iff]
    rw [note, clearMessages]
    dsimp only
    simp only [hmem, live_removed, exists_and_right, ← h.entries]
    exact and_congr_right hkey
  · exact (List.mem_append.mp hq).resolve_right fun heq => by cases List.mem_singleton.mp heq
  · have hold : .told r' completion ∈ c.log :=
      (List.mem_append.mp htold).resolve_right fun heq => by cases List.mem_singleton.mp heq
    cases h.told r' completion hold with
    | inl hremoved => exact .inl (List.mem_append_left _ hremoved)
    | inr htelling =>
      obtain rfl | rfl := hphase
      · cases htelling
      · cases htelling
        exact .inl (List.mem_append_right _ List.mem_cons_self)
  · have hquota := h.quota r' request' hr' htimeout
    have hsending : ¬phase = .sending r' := by
      obtain rfl | rfl := hphase <;> exact nofun
    rw [if_neg hsending] at hquota
    rw [note, List.count_append, List.count_singleton]
    exact hquota
  · exact lawful_append_singleton.mpr ⟨h.lawful, id, type, hlive⟩
  · obtain ⟨hm, hne⟩ := List.mem_filter.mp hm
    obtain ⟨id', type', hl⟩ := h.messages m hm
    exact ⟨id', type', live_removed.mpr ⟨hl, of_decide_eq_true hne⟩⟩

theorem remove (h : c.Sound phase) (hr : c.Removable r)
    (hphase : phase = .idle ∨ phase = .telling r ∧ ∃ id type, Live c.log r id type) :
    (c.remove r).Sound .idle ∧ (¬∃ id type, Live (c.remove r).log r id type) ∧
      ∀ r' id type, r' ≠ r → Live c.log r' id type → Live (c.remove r).log r' id type := by
  obtain ⟨hnone, heq⟩ | ⟨id, type, hlive, heq⟩ := h.remove_cases hr
  · rw [heq]
    refine ⟨?_, hnone, fun _ _ _ _ => id⟩
    obtain rfl | ⟨-, hsome⟩ := hphase
    · exact h
    · exact absurd hsome hnone
  · rw [heq]
    refine ⟨h.removed hlive (hphase.imp_right And.left), ?_, fun r' id' type' hne hl =>
      live_removed.mpr ⟨hl, hne⟩⟩
    rintro ⟨id', type', hl⟩
    exact (live_removed.mp hl).2 rfl

/-- A request is deleted. -/
theorem delete (h : c.Sound phase) (hr : c.Removable r)
    (hphase : phase = .idle ∨ phase = .telling r ∧ ∃ id type, Live c.log r id type) :
    (c.delete r).Sound .idle ∧
      ∀ r' id type, r' ≠ r → Live c.log r' id type → Live (c.delete r).log r' id type := by
  obtain ⟨hsound, hgone, hothers⟩ := h.remove hr hphase
  obtain ⟨request, hrequest, hmanager, -⟩ := hr
  have hany : (c.objects r).any (·.manager) = true := by
    rw [show c.objects r = some request from hrequest]
    exact hmanager
  rw [StunRequestManager.delete, if_pos hany]
  dsimp only
  refine ⟨⟨hsound.keys, hsound.entries, fun r' id type hl => ?_, fun r' request' hr' => ?_,
    fun r' id type hq => ?_, hsound.told, fun r' request' hr' => ?_, hsound.lawful, fun m hm => ?_⟩,
    hothers⟩
  · have hne : r' ≠ r := by
      rintro rfl
      exact hgone ⟨id, type, hl⟩
    obtain ⟨request', hrequest', hfields⟩ := hsound.alive r' id type hl
    exact ⟨request', mem_update.mpr (.inr ⟨hne, hrequest'⟩), hfields⟩
  · exact hsound.made r' request' ((mem_update.mp hr').resolve_left fun hn => by cases hn.2).2
  · refine ⟨(hsound.queued r' id type hq).1, fun request' hr' => ?_⟩
    exact (hsound.queued r' id type hq).2 request' ((mem_update.mp hr').resolve_left fun hn => by cases hn.2).2
  · exact hsound.quota r' request' ((mem_update.mp hr').resolve_left fun hn => by cases hn.2).2
  · exact hsound.messages m (List.mem_filter.mp hm).1

theorem clear (h : c.Sound .idle) : c.clear.Sound .idle := by
  have hdeletes : ∀ (rs : List ℕ) (c : StunRequestManager), c.Sound .idle → rs.Nodup →
      (∀ r ∈ rs, ∃ id type, Live c.log r id type) →
      (rs.foldl StunRequestManager.delete c).Sound .idle := by
    intro rs
    induction rs with
    | nil => exact fun c hc _ _ => hc
    | cons r rs ih =>
      intro c hc hnodup hlive
      obtain ⟨hr, hrs⟩ := List.nodup_cons.mp hnodup
      obtain ⟨id, type, hl⟩ := hlive r List.mem_cons_self
      obtain ⟨hsound, hothers⟩ := hc.delete (hc.removable hl) (.inl rfl)
      refine ih _ hsound hrs fun r' hr' => ?_
      obtain ⟨id', type', hl'⟩ := hlive r' (List.mem_cons_of_mem _ hr')
      have hne : r' ≠ r := fun heq => hr (heq ▸ hr')
      exact ⟨id', type', hothers r' id' type' hne hl'⟩
  refine hdeletes _ c h ?_ fun r hr => ?_
  · -- each request is there with its own id only
    have hnodup : c.requests.Nodup := List.Nodup.of_map _ h.keys
    refine List.Nodup.map_on ?_ hnodup
    rintro ⟨id, r⟩ he ⟨id', r'⟩ he' rfl
    obtain ⟨type, hl⟩ := (h.entries id r).mp he
    obtain ⟨type', hl'⟩ := (h.entries id' r).mp he'
    obtain ⟨request, hrequest, hid, -⟩ := h.alive r id type hl
    obtain ⟨request', hrequest', hid', -⟩ := h.alive r id' type' hl'
    cases (show c.objects r = some request from hrequest).symm.trans hrequest'
    rw [← hid, ← hid']
  · obtain ⟨⟨id, r'⟩, he, rfl⟩ := List.mem_map.mp hr
    obtain ⟨type, hl⟩ := (h.entries id r').mp he
    exact ⟨id, type, hl⟩

/-! ### Outcomes -/

/-- A request is told its outcome, and deleted. -/
theorem complete (h : c.Sound .idle) (hlive : Live c.log r id type)
    (hanswers : completion.Answers id type) {calls : List HandlerCall}
    (hguarded : Guarded StunRequestManager.call Sendable c calls) :
    (c.complete r completion calls).Sound .idle := by
  obtain ⟨hsound, hkept⟩ := (h.tell hlive hanswers).calls (guarded_of_eq hguarded rfl rfl rfl)
  have hlive' := hkept r id type (live_told.mpr hlive)
  exact (hsound.delete (hsound.removable hlive') (.inr ⟨rfl, id, type, hlive'⟩)).1

/-- **An answer completes the request that it belongs to, or none**. -/
theorem checkResponse (h : c.Sound .idle) (msg : StunMessage) {calls : List HandlerCall}
    (hguarded : Guarded StunRequestManager.call Sendable c calls) :
    (c.checkResponse msg calls).2.Sound .idle := by
  rw [StunRequestManager.checkResponse]
  cases hfind : c.find msg.transactionId with
  | none => exact h
  | some r =>
    dsimp only
    obtain ⟨type, hlive⟩ := (h.entries _ _).mp (h.find_iff.mp hfind)
    obtain ⟨request, hrequest, -, htype, -⟩ := h.alive r _ type hlive
    rw [show c.objects r = some request from hrequest]
    subst htype
    dsimp only
    split
    · rename_i hsuccess
      exact h.complete hlive (answers_success hsuccess) hguarded
    · split
      · rename_i herror
        exact h.complete hlive (answers_error herror) hguarded
      · exact h

theorem checkResponseData (h : c.Sound .idle) (data : List Uint8) {calls : List HandlerCall}
    (hguarded : Guarded StunRequestManager.call Sendable c calls) :
    (c.checkResponseData data calls).2.Sound .idle := by
  rw [StunRequestManager.checkResponseData]
  split
  · exact h
  · split
    · exact h
    · split
      · exact h
      · split
        · exact h
        · exact h.checkResponse _ hguarded

theorem message (h : c.Sound .idle) {m : ℕ × ℤ} (hm : m ∈ c.messages) {calls : List HandlerCall}
    (hguarded : Guarded StunRequestManager.call Sendable c calls) :
    (c.step (.message m calls)).Sound .idle := by
  obtain ⟨id, type, hlive⟩ := h.messages m hm
  obtain ⟨request, hrequest, -⟩ := h.alive m.1 id type hlive
  have htaken : Sound .idle { c with messages := c.messages.erase m } :=
    { h with messages := fun m' hm' => h.messages m' (List.mem_of_mem_erase hm') }
  have hguarded' : Guarded StunRequestManager.call Sendable { c with messages := c.messages.erase m } calls :=
    guarded_of_eq hguarded rfl rfl rfl
  rw [step, onMessage]
  dsimp only
  rw [show c.objects m.1 = some request from hrequest]
  dsimp only
  split
  · exact htaken.complete hlive (show Completion.onTimeout.Answers id type from trivial) hguarded'
  · rename_i htimeout
    obtain ⟨hsound, hkept⟩ := (htaken.sent hlive hrequest (Bool.eq_false_iff.mpr htimeout)).calls
      (guarded_of_eq hguarded' rfl rfl rfl)
    exact hsound.sendAgain (hkept m.1 id type (live_sent.mpr hlive))

end Sound

theorem sound_step (c : StunRequestManager) (e : RequestCall) (h : c.Sound .idle) (hlegal : c.Legal e) :
    (c.step e).Sound .idle := by
  cases e with
  | outside e => exact (h.call hlegal).1
  | message m calls => exact h.message hlegal.1 hlegal.2
  | checkResponse msg calls => exact h.checkResponse msg hlegal
  | checkResponseData data calls => exact h.checkResponseData data hlegal
  | remove r => exact (h.remove hlegal (.inl rfl)).1
  | delete r => exact (h.delete hlegal (.inl rfl)).1
  | clear => exact h.clear

theorem sound_start : Sound .idle {} where
  keys := .nil
  entries := by simp [Live]
  alive := fun _ _ _ hl => nomatch hl.1
  made := nofun
  queued := nofun
  told := nofun
  quota := nofun
  lawful := lawful_nil
  messages := nofun

/-! ## Runs -/

/-- **STUN transactions complete at most once**, with a response of their id and method, and after
`maxSends` sends at most. -/
theorem completes_once (calls : List RequestCall) (hlegal : Guarded step Legal {} calls) :
    let c := run step {} calls
    c.log.Pairwise (fun a b => ∀ r completion, a = .told r completion →
      b ≠ .sent r ∧ ∀ completion', b ≠ .told r completion') ∧
    (∀ pre r completion post, c.log = pre ++ .told r completion :: post →
      ∃ id type, Pending pre r id type ∧ completion.Answers id type) ∧
    (∀ r, c.log.count (.sent r) ≤ maxSends) ∧
    (c.requests.map Prod.fst).Nodup ∧
    ∀ id r, (id, r) ∈ c.requests ↔ ∃ type, Pending c.log r id type := by
  intro c
  have h : c.Sound .idle := run_invariant sound_step sound_start hlegal
  clear_value c
  refine ⟨h.lawful.pairwise fun pre e hallowed a ha r completion hr => ?_,
    fun pre r completion post hsplit => h.lawful pre _ post hsplit,
    fun r => h.lawful.count_le fun pre hallowed => hallowed.2, h.keys, fun id r => ?_⟩
  · subst hr
    refine ⟨?_, fun completion' => ?_⟩
    · rintro rfl
      obtain ⟨⟨id, type, hpending⟩, -⟩ := hallowed
      exact hpending.2 completion ha
    · rintro rfl
      obtain ⟨id, type, hpending, -⟩ := hallowed
      exact hpending.2 completion ha
  · rw [h.entries]
    exact exists_congr fun type => ⟨h.pending_of_live, And.left⟩

/-- An answer to a binding request. -/
def bindingResponse : StunMessage := ⟨.stun, 0x0101, 0, List.replicate 12 0x61, []⟩

def twoRequests : List RequestCall :=
  [.outside (.new .stunRequest .stun 0 stunBindingRequest (List.replicate 12 0x61)),
    .outside (.sendDelayed 0 0), .message (0, 0) [],
    .checkResponse { bindingResponse with type := 0x0103 } [],
    .checkResponse bindingResponse
      [.new .stunRequest .stun 0 stunBindingRequest (List.replicate 12 0x62), .sendDelayed 1 50],
    .checkResponse bindingResponse [], .message (1, 50) [], .message (1, 100) [], .clear]

theorem completes_once_two :
    let c := run step {} twoRequests
    c.log.count (.told 0 (.onResponse bindingResponse)) = 1 ∧ c.log.count (.sent 1) = 2 ∧
      c.requests = [] ∧
      ∀ id r, (id, r) ∈ c.requests ↔ ∃ type, Pending c.log r id type := by
  obtain ⟨-, -, -, -, hpending⟩ := completes_once twoRequests (by decide)
  exact ⟨by decide, by decide, by decide, hpending⟩

end StunRequestManager

end Libjingle
