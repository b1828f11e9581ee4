import Libjingle.Signaling.Session

/-!
# `SessionManager` (`p2p/base/sessionmanager.{h,cc}`)

Main results: **`sessionTable_iff`**, **`initiate_replaces_session`**.

Handlers of the signals of a session or of the manager, and the session clients, do not call back.
-/

variable {stanza : Stanza}

namespace Libjingle.Signaling

open Lib P2P

/-- A session that exists, with its id. -/
structure Live where
  id : Name
  session : Session

/-- The bare id of the other side. -/
def Live.remote (live : Live) : Jid := (Jid.parse live.session.remoteName).bareJid

/-- A stanza as `ParseSessionMessage` reads it. -/
structure Stanza where
  sid : Name
  recipient : Name
  contentType : Except Name Name
  msg : SessionMessage

def Stanza.remote (stanza : Stanza) : Jid := (Jid.parse stanza.msg.sender).bareJid

def IncomingAction.isInitiate : IncomingAction → Bool
  | .sessionInitiate _ => true
  | _ => false

/-- `SessionManager`. -/
structure SessionManager where
  clients : List Name
  sessions : ℕ → Option Live := fun _ => none
  sessionMap : Name → Option ℕ := fun _ => none
  created : ℕ := 0
  errors : List MessageError := []

namespace SessionManager

variable (m : SessionManager)

def sendError (error : MessageError) : SessionManager := { m with errors := m.errors ++ [error] }

def badRequest (text : Name) : MessageError := ⟨.badRequest, .plain text⟩

/-- `SessionManager::CreateSession`. -/
def createSession (localName initiatorName sid : Name) : ℕ × SessionManager :=
  (m.created, { m with
    sessions := Function.update m.sessions m.created (some ⟨sid, Session.new localName initiatorName⟩)
    sessionMap := Function.update m.sessionMap sid (some m.created)
    created := m.created + 1 })

/-- `SessionManager::DestroySession`. -/
def destroySession (n : ℕ) : SessionManager :=
  match m.sessions n with
  | none => m
  | some live =>
    if (m.sessionMap live.id).isSome then
      { m with
        sessions := Function.update m.sessions n none
        sessionMap := Function.update m.sessionMap live.id none }
    else m

/-- `SessionManager::FindSession`. -/
def findSession (sid remoteName : Name) : Option ℕ :=
  match m.sessionMap sid with
  | none => none
  | some n =>
    match m.sessions n with
    | none => none
    | some live => if (Jid.parse remoteName).bareJid ≠ live.remote then none else some n

def update (n : ℕ) (live : Live) (session : Session) : SessionManager :=
  { m with sessions := Function.update m.sessions n (some { live with session := session }) }

def deliver (env : Surroundings) (n : ℕ) (msg : SessionMessage) : SessionManager :=
  match m.sessions n with
  | none => m
  | some live =>
    let r := live.session.onIncomingMessage env msg
    match r.1 with
    | none => m.update n live r.2
    | some error => (m.update n live r.2).sendError error

/-- `SessionManager::OnIncomingMessage`. -/
def onIncomingMessage (env : Surroundings) : Except Name Stanza → SessionManager
  | .error text => m.sendError (badRequest text)
  | .ok stanza =>
    match m.findSession stanza.sid stanza.msg.sender with
    | some n => m.deliver env n stanza.msg
    | none =>
      if !stanza.msg.action.isInitiate then m.sendError (badRequest (text "unknown session"))
      else
        match stanza.contentType with
        | .error text => m.sendError (badRequest text)
        | .ok contentType =>
          if !m.clients.contains contentType then
            m.sendError (badRequest (text "unknown content type: " ++ contentType))
          else
            let r := m.createSession stanza.recipient stanza.msg.initiator stanza.sid
            r.2.deliver env r.1 stanza.msg

/-- What happens to a session by itself. -/
def onSessionEvent (n : ℕ) (input : Surroundings × Session.Event) : SessionManager :=
  match m.sessions n with
  | none => m
  | some live =>
    let session := live.session.step input
    if session.state = .deinit then
      let left := { live.session with messages := live.session.messages.erase .state }
      (m.update n live left).destroySession n
    else m.update n live session

def onIncomingResponse (env : Surroundings) (sid recipient ackFrom : Name) : SessionManager :=
  match (m.findSession sid recipient).or (m.findSession sid ackFrom) with
  | none => m
  | some n => m.onSessionEvent n (env, .initiateResponse recipient)

def onFailedSend (env : Surroundings) (sid recipient : Name) (type : ActionType)
    (error : Session.SendError) : SessionManager :=
  match m.findSession sid recipient with
  | none => m
  | some n => m.onSessionEvent n (env, .failedSend (some type) error)

def isOwn : Session.Event → Bool
  | .incoming _ | .initiateResponse _ | .failedSend _ _ => false
  | _ => true

/-- What reaches the manager. -/
inductive Event where
  | incoming (env : Surroundings) (stanza : Except Name Stanza)
  | response (env : Surroundings) (sid recipient ackFrom : Name)
  | failedSend (env : Surroundings) (sid recipient : Name) (type : ActionType)
    (error : Session.SendError)
  | create (localName sid contentType : Name)
  | destroy (n : ℕ)
  | session (n : ℕ) (input : Surroundings × Session.Event)

def step (m : SessionManager) : Event → SessionManager
  | .incoming env stanza => m.onIncomingMessage env stanza
  | .response env sid recipient ackFrom => m.onIncomingResponse env sid recipient ackFrom
  | .failedSend env sid recipient type error => m.onFailedSend env sid recipient type error
  | .create localName sid _ => (m.createSession localName localName sid).2
  | .destroy n => m.destroySession n
  | .session n input => if isOwn input.2 then m.onSessionEvent n input else m

def Fresh (m : SessionManager) : Event → Prop
  | .create _ sid contentType => m.clients.contains contentType = true ∧ m.sessionMap sid = none
  | _ => True

/-! ## What is asked -/

/-- Different sessions have different ids, and each is stored under its own. -/
structure Table (m : SessionManager) : Prop where
  distinct : ∀ n n' live live', m.sessions n = some live → m.sessions n' = some live' →
    live.id = live'.id → n = n'
  stored : ∀ n live, m.sessions n = some live → m.sessionMap live.id = some n

def Untouched (m m' : SessionManager) (n : ℕ) : Prop :=
  m'.sessions n = m.sessions n ∧
    ∀ live, m.sessions n = some live → m'.sessionMap live.id = m.sessionMap live.id

def Destroyed (m m' : SessionManager) (n : ℕ) : Prop :=
  m'.sessions = Function.update m.sessions n none ∧
    ∀ id, m'.sessionMap id = if m.sessionMap id = some n then none else m.sessionMap id

/-- What is asked of a step. -/
def Kept (m : SessionManager) (e : Event) : Prop :=
  (m.step e).Table ∧
    (∀ n live, m.sessions n = some live → (m.step e).sessions n = none → Destroyed m (m.step e) n) ∧
    match e with
    | .incoming _ (.ok stanza) =>
      ∀ n live, m.sessions n = some live → live.remote ≠ stanza.remote → Untouched m (m.step e) n
    | .destroy n => (m.step e).sessions n = none
    | _ => True

def NoReuse (m : SessionManager) : Event → Prop
  | .incoming _ (.ok stanza) =>
    stanza.msg.action.isInitiate = true →
      (∃ contentType, stanza.contentType = .ok contentType ∧ m.clients.contains contentType = true) →
      ∀ n live, m.sessionMap stanza.sid = some n → m.sessions n = some live →
        live.remote = stanza.remote
  | _ => True

/-! ## The invariant -/

def idOf (m : SessionManager) (n : ℕ) : Option Name := (m.sessions n).map (·.id)

/-- The invariant: ids and entries are inverse to each other. -/
structure Sound (m : SessionManager) : Prop where
  inverse : ∀ n id, m.idOf n = some id ↔ m.sessionMap id = some n
  below : ∀ n, m.created ≤ n → m.idOf n = none

/-- `m'` is `m`, but for a session, which keeps its id. -/
structure Alters (m m' : SessionManager) (n : ℕ) : Prop where
  map : m'.sessionMap = m.sessionMap
  created : m'.created = m.created
  clients : m'.clients = m.clients
  others : ∀ k, k ≠ n → m'.sessions k = m.sessions k
  ids : m'.idOf n = m.idOf n

variable {m m' m'' : SessionManager} {n : ℕ} {live : Live}

theorem idOf_eq (h : m.sessions n = some live) : m.idOf n = some live.id := by
  rw [idOf, h, Option.map_some]

theorem sessions_createSession {k : ℕ} (hk : k ≠ m.created) (localName initiatorName sid : Name) :
    (m.createSession localName initiatorName sid).2.sessions k = m.sessions k :=
  Function.update_of_ne hk _ _

namespace Alters

theorem rfl' (m : SessionManager) (n : ℕ) : Alters m m n := ⟨rfl, rfl, rfl, fun _ _ => rfl, rfl⟩

theorem sendError (h : Alters m m' n) (error : MessageError) : Alters m (m'.sendError error) n :=
  ⟨h.map, h.created, h.clients, h.others, h.ids⟩

theorem update (h : m.sessions n = some live) (session : Session) :
    Alters m (m.update n live session) n where
  map := rfl
  created := rfl
  clients := rfl
  others k hk := Function.update_of_ne hk _ _
  ids := by
    rw [idOf_eq h, SessionManager.idOf, SessionManager.update]
    dsimp only
    rw [Function.update_self, Option.map_some]

theorem deliver (m : SessionManager) (env : Surroundings) (n : ℕ) (msg : SessionMessage) :
    Alters m (m.deliver env n msg) n := by
  rw [SessionManager.deliver]
  split
  · exact rfl' m n
  · rename_i live h
    dsimp only
    split
    · exact update h _
    · exact (update h _).sendError _

theorem untouched (h : Alters m m' n) {k : ℕ} (hk : k ≠ n) : Untouched m m' k :=
  ⟨h.others k hk, fun live _ => by rw [h.map]⟩

theorem idOf (h : Alters m m' n) (k : ℕ) : m'.idOf k = m.idOf k := by
  by_cases hk : k = n
  · rw [hk, h.ids]
  · rw [SessionManager.idOf, SessionManager.idOf, h.others k hk]

end Alters

namespace Sound

theorem table (h : m.Sound) : m.Table where
  distinct n n' live live' hn hn' hid := by
    have hmap := (h.inverse n live.id).mp (idOf_eq hn)
    have hmap' := (h.inverse n' live'.id).mp (idOf_eq hn')
    rw [← hid, hmap] at hmap'
    exact Option.some.inj hmap'
  stored n live hn := (h.inverse n live.id).mp (idOf_eq hn)

theorem alters (h : m.Sound) (hm : Alters m m' n) : m'.Sound where
  inverse k id := by rw [hm.idOf, hm.map, h.inverse]
  below k hk := by
    rw [hm.idOf]
    exact h.below k (hm.created ▸ hk)

theorem session_of_entry (h : m.Sound) {id : Name} (hmap : m.sessionMap id = some n) :
    ∃ live, m.sessions n = some live ∧ live.id = id := by
  obtain ⟨live, hlive, hid⟩ := Option.map_eq_some_iff.mp ((h.inverse n id).mpr hmap)
  exact ⟨live, hlive, hid⟩

/-- A session is created under a new id. -/
theorem createSession (h : m.Sound) {sid : Name} (hsid : m.sessionMap sid = none)
    (localName initiatorName : Name) : (m.createSession localName initiatorName sid).2.Sound := by
  have hfresh := h.below m.created le_rfl
  constructor
  · intro n id
    simp only [SessionManager.createSession, idOf, Function.update_apply]
    by_cases hn : n = m.created <;> by_cases hid : id = sid
    · simp [hn, hid]
    · have hne : m.sessionMap id ≠ some m.created := fun hmap => by
        rw [(h.inverse _ _).mpr hmap] at hfresh
        cases hfresh
      simp [hn, hid, Ne.symm hid, hne]
    · have hne : m.idOf n ≠ some sid := fun hid => by
        rw [(h.inverse _ _).mp hid] at hsid
        cases hsid
      rw [if_neg hn, if_pos hid, hid]
      exact iff_of_false hne (fun hc => hn (Option.some.inj hc).symm)
    · rw [if_neg hn, if_neg hid]
      exact h.inverse n id
  · intro n hn
    have hne : n ≠ m.created := Nat.ne_of_gt hn
    rw [idOf, SessionManager.createSession]
    dsimp only
    rw [Function.update_of_ne hne]
    exact h.below n (Nat.le_of_succ_le hn)

theorem destroySession_eq (h : m.Sound) (hn : m.sessions n = some live) :
    m.destroySession n = { m with
      sessions := Function.update m.sessions n none
      sessionMap := Function.update m.sessionMap live.id none } := by
  have hmap := (h.inverse n live.id).mp (idOf_eq hn)
  rw [SessionManager.destroySession, hn]
  dsimp only
  rw [hmap, if_pos (Option.isSome_some)]

/-- A session goes, and its id with it. -/
theorem destroySession (h : m.Sound) (n : ℕ) : (m.destroySession n).Sound := by
  cases hn : m.sessions n with
  | none =>
    rw [SessionManager.destroySession, hn]
    exact h
  | some live =>
    have hmap := (h.inverse n live.id).mp (idOf_eq hn)
    rw [h.destroySession_eq hn]
    constructor
    · intro k id
      simp only [idOf, Function.update_apply]
      by_cases hk : k = n <;> by_cases hid : id = live.id
      · simp [hk, hid]
      · have hne : m.sessionMap id ≠ some n := fun hc => by
          rw [← h.inverse, idOf_eq hn] at hc
          exact hid (Option.some.inj hc).symm
        simp [hk, hid, hne]
      · have hne : m.idOf k ≠ some live.id := fun hc => by
          rw [h.inverse, hmap] at hc
          exact hk (Option.some.inj hc).symm
        rw [if_neg hk, if_pos hid, hid]
        exact iff_of_false hne nofun
      · rw [if_neg hk, if_neg hid]
        exact h.inverse k id
    · intro k hk
      simp only [idOf, Function.update_apply]
      split
      · rfl
      · exact h.below k hk

end Sound

/-! ## One step -/

theorem findSession_eq_some {sid remoteName : Name} (hfind : m.findSession sid remoteName = some n) :
    m.sessionMap sid = some n ∧
      ∃ live, m.sessions n = some live ∧ live.remote = (Jid.parse remoteName).bareJid := by
  rw [findSession] at hfind
  split at hfind
  · cases hfind
  · rename_i hmap
    split at hfind
    · cases hfind
    · rename_i live hlive
      split at hfind
      · cases hfind
      · rename_i hsame
        cases hfind
        exact ⟨hmap, live, hlive, (not_not.mp hsame).symm⟩

theorem findSession_eq_none {sid remoteName : Name} (hfind : m.findSession sid remoteName = none)
    (hmap : m.sessionMap sid = some n) (hn : m.sessions n = some live) :
    live.remote ≠ (Jid.parse remoteName).bareJid := by
  intro hsame
  rw [findSession, hmap] at hfind
  dsimp only at hfind
  rw [hn] at hfind
  dsimp only at hfind
  rw [hsame, if_neg (not_not.mpr rfl)] at hfind
  cases hfind

def Initiates (m : SessionManager) (stanza : Stanza) : Prop :=
  m.findSession stanza.sid stanza.msg.sender = none ∧ stanza.msg.action.isInitiate = true ∧
    ∃ contentType, stanza.contentType = .ok contentType ∧ m.clients.contains contentType = true

theorem onIncomingMessage_cases (m : SessionManager) (env : Surroundings) (stanza : Stanza) :
    (¬m.Initiates stanza ∧ ∃ error, m.onIncomingMessage env (.ok stanza) = m.sendError error) ∨
      (∃ n, m.findSession stanza.sid stanza.msg.sender = some n ∧
        m.onIncomingMessage env (.ok stanza) = m.deliver env n stanza.msg) ∨
      (m.Initiates stanza ∧ m.onIncomingMessage env (.ok stanza) =
        (m.createSession stanza.recipient stanza.msg.initiator stanza.sid).2.deliver env m.created
          stanza.msg) := by
  rw [onIncomingMessage]
  cases hfind : m.findSession stanza.sid stanza.msg.sender with
  | some n => exact .inr (.inl ⟨n, rfl, rfl⟩)
  | none =>
    dsimp only
    by_cases hinitiate : stanza.msg.action.isInitiate = true
    · rw [hinitiate, if_neg (by simp)]
      cases hct : stanza.contentType with
      | error text =>
        refine .inl ⟨?_, _, rfl⟩
        rintro ⟨-, -, contentType, hok, -⟩
        rw [hct] at hok
        cases hok
      | ok contentType =>
        dsimp only
        by_cases hclient : m.clients.contains contentType = true
        · rw [hclient, if_neg (by simp)]
          exact .inr (.inr ⟨⟨hfind, hinitiate, contentType, hct, hclient⟩, rfl⟩)
        · rw [if_pos (by simpa using hclient)]
          refine .inl ⟨?_, _, rfl⟩
          rintro ⟨-, -, contentType', hok, hclient'⟩
          rw [hct] at hok
          cases hok
          exact hclient hclient'
    · rw [if_pos (by simpa using hinitiate)]
      exact .inl ⟨fun h => hinitiate h.2.1, _, rfl⟩

theorem Sound.onSessionEvent (h : m.Sound) (n : ℕ) (input : Surroundings × Session.Event) :
    (m.onSessionEvent n input).Sound := by
  rw [SessionManager.onSessionEvent]
  split
  · exact h
  · rename_i live hlive
    dsimp only
    split
    · exact (h.alters (Alters.update hlive _)).destroySession n
    · exact h.alters (Alters.update hlive _)

theorem Sound.initiates_free (h : m.Sound) {env : Surroundings}
    (hreuse : m.NoReuse (.incoming env (.ok stanza))) (hinit : m.Initiates stanza) :
    m.sessionMap stanza.sid = none := by
  obtain ⟨hfind, hinitiate, hclient⟩ := hinit
  cases hmap : m.sessionMap stanza.sid with
  | none => rfl
  | some n =>
    obtain ⟨live, hlive, -⟩ := h.session_of_entry hmap
    exact absurd (hreuse hinitiate hclient n live hmap hlive) (findSession_eq_none hfind hmap hlive)

/-- **Every event keeps the table sound**. -/
theorem sound_step (m : SessionManager) (e : Event) (h : m.Sound) (hfresh : m.Fresh e)
    (hreuse : m.NoReuse e) : (m.step e).Sound := by
  cases e with
  | incoming env stanza =>
    cases stanza with
    | error text => exact h.alters ((Alters.rfl' m 0).sendError _)
    | ok stanza =>
      rw [step]
      rcases onIncomingMessage_cases m env stanza with ⟨-, error, heq⟩ | ⟨n, -, heq⟩ | ⟨hinit, heq⟩
      · rw [heq]
        exact h.alters ((Alters.rfl' m 0).sendError _)
      · rw [heq]
        exact h.alters (Alters.deliver m env n _)
      · rw [heq]
        exact (h.createSession (h.initiates_free hreuse hinit) _ _).alters (Alters.deliver _ _ _ _)
  | response env sid recipient ackFrom =>
    rw [step, onIncomingResponse]
    split
    · exact h
    · exact h.onSessionEvent _ _
  | failedSend env sid recipient type error =>
    rw [step, onFailedSend]
    split
    · exact h
    · exact h.onSessionEvent _ _
  | create localName sid contentType => exact h.createSession hfresh.2 _ _
  | destroy n => exact h.destroySession n
  | session n input =>
    rw [step]
    split
    · exact h.onSessionEvent n input
    · exact h

theorem Sound.created_free (h : m.Sound) {k : ℕ} (hk : m.sessions k = some live) : k ≠ m.created := by
  rintro rfl
  have hnone := h.below m.created le_rfl
  rw [idOf_eq hk] at hnone
  cases hnone

theorem Sound.untouched (h : m.Sound) {env : Surroundings}
    (hreuse : m.NoReuse (.incoming env (.ok stanza))) {k : ℕ} (hk : m.sessions k = some live)
    (hremote : live.remote ≠ stanza.remote) :
    Untouched m (m.onIncomingMessage env (.ok stanza)) k := by
  rcases onIncomingMessage_cases m env stanza with ⟨-, error, heq⟩ | ⟨n, hfind, heq⟩ | ⟨hinit, heq⟩
  · rw [heq]
    exact ⟨rfl, fun _ _ => rfl⟩
  · rw [heq]
    refine (Alters.deliver m env n stanza.msg).untouched ?_
    rintro rfl
    obtain ⟨-, live', hlive', hsame⟩ := findSession_eq_some hfind
    rw [hk] at hlive'
    cases hlive'
    exact hremote hsame
  · rw [heq]
    have hne := h.created_free hk
    have hother := (Alters.deliver (m.createSession stanza.recipient stanza.msg.initiator
      stanza.sid).2 env m.created stanza.msg).untouched hne
    have hid : live.id ≠ stanza.sid := by
      intro hid
      have hmap := h.table.stored k live hk
      rw [hid, h.initiates_free hreuse hinit] at hmap
      cases hmap
    refine ⟨hother.1.trans (sessions_createSession hne _ _ _), fun live' hlive' => ?_⟩
    rw [hk] at hlive'
    cases hlive'
    rw [hother.2 live ((sessions_createSession hne _ _ _).trans hk)]
    exact Function.update_of_ne hid _ _

/-! ### Sessions that are gone -/

/-- The sessions that a step takes away are destroyed. -/
def Vanishing (m m' : SessionManager) : Prop :=
  ∀ n live, m.sessions n = some live → m'.sessions n = none → Destroyed m m' n

theorem Alters.vanishing (h : Alters m m' n) : Vanishing m m' := by
  intro k live hk hgone
  have hid := h.idOf k
  rw [SessionManager.idOf, hgone, idOf_eq hk] at hid
  cases hid

theorem Sound.destroyed (h : m.Sound) (hn : m.sessions n = some live) : Destroyed m (m.destroySession n) n := by
  rw [h.destroySession_eq hn]
  refine ⟨rfl, fun id => ?_⟩
  have hiff : m.sessionMap id = some n ↔ id = live.id := by
    rw [← h.inverse, idOf_eq hn, Option.some.injEq, eq_comm]
  simp only [Function.update_apply, hiff]

theorem Destroyed.vanishing (h : Destroyed m m' n) : Vanishing m m' := by
  intro k live hk hgone
  rw [h.1, Function.update_apply] at hgone
  split at hgone
  · rename_i hkn
    exact hkn ▸ h
  · rw [hk] at hgone
    cases hgone

theorem Sound.vanishing_destroySession (h : m.Sound) (n : ℕ) : Vanishing m (m.destroySession n) := by
  cases hn : m.sessions n with
  | none =>
    rw [SessionManager.destroySession, hn]
    exact (Alters.rfl' m 0).vanishing
  | some live => exact (h.destroyed hn).vanishing

theorem Sound.vanishing_onSessionEvent (h : m.Sound) (n : ℕ) (input : Surroundings × Session.Event) :
    Vanishing m (m.onSessionEvent n input) := by
  rw [SessionManager.onSessionEvent]
  split
  · exact (Alters.rfl' m 0).vanishing
  · rename_i live hlive
    dsimp only
    split
    · have halters := Alters.update hlive
        { live.session with messages := live.session.messages.erase .state }
      refine Destroyed.vanishing (n := n) ⟨?_, ?_⟩
      · rw [((h.alters halters).destroyed (Function.update_self _ _ _)).1]
        exact Function.update_idem _ _ _
      · exact ((h.alters halters).destroyed (Function.update_self _ _ _)).2
    · exact (Alters.update hlive _).vanishing

theorem Sound.vanishing (h : m.Sound) (e : Event) : Vanishing m (m.step e) := by
  cases e with
  | incoming env stanza =>
    cases stanza with
    | error text => exact ((Alters.rfl' m 0).sendError _).vanishing
    | ok stanza =>
      rw [step]
      rcases onIncomingMessage_cases m env stanza with ⟨-, error, heq⟩ | ⟨n, -, heq⟩ | ⟨-, heq⟩
      · rw [heq]
        exact ((Alters.rfl' m 0).sendError _).vanishing
      · rw [heq]
        exact (Alters.deliver m env n _).vanishing
      · intro k live hk hgone
        have hne := h.created_free hk
        rw [heq, (Alters.deliver _ env m.created stanza.msg).others k hne,
          sessions_createSession hne, hk] at hgone
        cases hgone
  | response env sid recipient ackFrom =>
    rw [step, onIncomingResponse]
    split
    · exact (Alters.rfl' m 0).vanishing
    · exact h.vanishing_onSessionEvent _ _
  | failedSend env sid recipient type error =>
    rw [step, onFailedSend]
    split
    · exact (Alters.rfl' m 0).vanishing
    · exact h.vanishing_onSessionEvent _ _
  | create localName sid contentType =>
    intro k live hk hgone
    rw [step, sessions_createSession (h.created_free hk), hk] at hgone
    cases hgone
  | destroy n => exact h.vanishing_destroySession n
  | session n input =>
    rw [step]
    split
    · exact h.vanishing_onSessionEvent n input
    · exact (Alters.rfl' m 0).vanishing

theorem Sound.sessions_destroySession (h : m.Sound) (n : ℕ) : (m.destroySession n).sessions n = none := by
  cases hn : m.sessions n with
  | none =>
    rw [SessionManager.destroySession, hn]
    exact hn
  | some live =>
    rw [(h.destroyed hn).1]
    exact Function.update_self _ _ _

/-! ### What is asked -/

theorem Sound.replaced (h : m.Sound) (env : Surroundings) (hinitiate : stanza.msg.action.isInitiate = true)
    (hclient : ∃ contentType, stanza.contentType = .ok contentType ∧
      m.clients.contains contentType = true)
    (hmap : m.sessionMap stanza.sid = some n) (hn : m.sessions n = some live)
    (hremote : live.remote ≠ stanza.remote) :
    (m.onIncomingMessage env (.ok stanza)).sessionMap stanza.sid = some m.created ∧
      (m.onIncomingMessage env (.ok stanza)).sessions n = some live := by
  have hfind : m.findSession stanza.sid stanza.msg.sender = none := by
    by_contra hsome
    obtain ⟨k, hk⟩ := Option.ne_none_iff_exists'.mp hsome
    obtain ⟨hmap', live', hlive', hsame⟩ := findSession_eq_some hk
    obtain rfl := Option.some.inj (hmap.symm.trans hmap')
    obtain rfl := Option.some.inj (hn.symm.trans hlive')
    exact hremote hsame
  have hinit : m.Initiates stanza := ⟨hfind, hinitiate, hclient⟩
  rcases onIncomingMessage_cases m env stanza with ⟨hnot, -⟩ | ⟨k, hk, -⟩ | ⟨-, heq⟩
  · exact absurd hinit hnot
  · rw [hfind] at hk
    cases hk
  · rw [heq]
    have halters := Alters.deliver (m.createSession stanza.recipient stanza.msg.initiator
      stanza.sid).2 env m.created stanza.msg
    have hne := h.created_free hn
    exact ⟨(congrFun halters.map _).trans (Function.update_self _ _ _),
      (halters.others n hne).trans ((sessions_createSession hne _ _ _).trans hn)⟩

/-- **An event keeps the table exactly if no id is used again**. -/
theorem kept_iff_noReuse (m : SessionManager) (e : Event) (h : m.Sound) (hfresh : m.Fresh e) :
    m.Kept e ↔ m.NoReuse e := by
  constructor
  · rintro ⟨htable, -⟩
    cases e with
    | incoming env stanza =>
      cases stanza with
      | error text => trivial
      | ok stanza =>
        intro hinitiate hclient n live hmap hlive
        by_contra hremote
        obtain ⟨live', hlive', hid⟩ := h.session_of_entry hmap
        rw [hlive] at hlive'
        cases hlive'
        obtain ⟨hentry, hleft⟩ := h.replaced env hinitiate hclient hmap hlive hremote
        have hstored := htable.stored n live hleft
        rw [hid, step, hentry] at hstored
        exact h.created_free hlive (Option.some.inj hstored).symm
    | _ => trivial
  · intro hreuse
    refine ⟨(sound_step m e h hfresh hreuse).table, h.vanishing e, ?_⟩
    cases e with
    | incoming env stanza =>
      cases stanza with
      | error text => trivial
      | ok stanza => exact fun k live hk hremote => h.untouched hreuse hk hremote
    | destroy n => exact h.sessions_destroySession n
    | _ => trivial

/-! ## Runs -/

def start (clients : List Name) : SessionManager := { clients := clients }

theorem sound_start (clients : List Name) : (start clients).Sound :=
  ⟨fun _ _ => ⟨nofun, nofun⟩, fun _ _ => rfl⟩

/-- **The table of sessions.** -/
theorem sessionTable_iff (clients : List Name) (events : List Event)
    (hfresh : Guarded step Fresh (start clients) events) :
    Guarded step Kept (start clients) events ↔ Guarded step NoReuse (start clients) events := by
  have hcongr : Guarded step (fun m e => m.Fresh e ∧ m.Kept e) (start clients) events ↔
      Guarded step (fun m e => m.Fresh e ∧ m.NoReuse e) (start clients) events :=
    guarded_congr (fun m e h => and_congr_right fun hf => kept_iff_noReuse m e h hf)
      (fun m e h hG => sound_step m e h hG.1 ((kept_iff_noReuse m e h hG.1).mp hG.2))
      (sound_start clients)
  rw [guarded_and, guarded_and] at hcongr
  exact ⟨fun hk => (hcongr.mp ⟨hfresh, hk⟩).2, fun hr => (hcongr.mpr ⟨hfresh, hr⟩).2⟩

/-- An empty initiate to `a@x` with the session id `s`. -/
def initiateFrom (sender : Name) : Event :=
  .incoming {} (.ok ⟨text "s", text "a@x", .ok (text "c"),
    ⟨sender, sender, .jingle, .sessionInitiate (.ok ⟨[], [], []⟩)⟩⟩)

/-- The same side initiates twice, and the session is destroyed. -/
theorem sessionTable_iff_destroyed :
    let events := [initiateFrom (text "b@x/1"), .create (text "a@x") (text "t") (text "c"),
      initiateFrom (text "b@x/2"), .destroy 0]
    (Guarded step Kept (start [text "c"]) events ↔ Guarded step NoReuse (start [text "c"]) events) ∧
      (run step (start [text "c"]) events).sessionMap (text "s") = none ∧
      (run step (start [text "c"]) events).sessionMap (text "t") = some 1 := by
  refine ⟨sessionTable_iff _ _ ?_, by decide, by decide⟩
  exact ⟨trivial, ⟨by decide, by decide⟩, trivial, trivial, trivial⟩

/-- **A session that an initiate from elsewhere takes out of the table.** -/
theorem initiate_replaces_session :
    let events := [initiateFrom (text "b@x/1"), initiateFrom (text "c@x/1")]
    let m := run step (start [text "c"]) events
    Guarded step Fresh (start [text "c"]) events ∧
      (m.sessions 0).map Live.remote = some ⟨text "b", text "x", []⟩ ∧ m.idOf 0 = some (text "s") ∧
      m.sessionMap (text "s") = some 1 ∧ ¬Guarded step Kept (start [text "c"]) events := by
  intro events m
  have hid : m.idOf 0 = some (text "s") := by decide
  have hmap : m.sessionMap (text "s") = some 1 := by decide
  refine ⟨⟨trivial, trivial, trivial⟩, by decide, hid, hmap, fun h => ?_⟩
  obtain ⟨live, hlive, hs⟩ := Option.map_eq_some_iff.mp hid
  have hstored : m.sessionMap live.id = some 0 := h.2.1.1.stored 0 live hlive
  rw [hs, hmap] at hstored
  cases hstored

end SessionManager

end Libjingle.Signaling
