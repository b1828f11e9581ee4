import Libjingle.Signaling.Session

/-!
# The watchdog of a session

A session posts a `MSG_TIMEOUT` when it hears from a transport that is not writable, and clears it when it
hears from one that is, or from one without channels. All its transports share the one message.

Main result: **`watchdog_iff`**.
-/

namespace Libjingle.Signaling

open Lib

def Transport.watched (t : Transport) : Bool :=
  t.hasChannels && t.signalledConnecting && !t.writable

def Transports.OtherWatched (n : Transports) (t : ℕ) : Prop := ∃ t', t' ≠ t ∧ (n.transportAt t').watched

theorem Transports.otherWatched_modifyTransport (n : Transports) (t : ℕ) (f : Transport → Transport) :
    (n.modifyTransport t f).OtherWatched t ↔ n.OtherWatched t :=
  exists_congr fun t' => and_congr_right fun ht => by rw [n.transportAt_modifyTransport_of_ne ht]

theorem Transports.exists_watched_iff (n : Transports) (t : ℕ) :
    (∃ t', (n.transportAt t').watched) ↔ (n.transportAt t).watched ∨ n.OtherWatched t := by
  constructor
  · rintro ⟨t', h⟩
    by_cases ht : t' = t
    · exact .inl (ht ▸ h)
    · exact .inr ⟨t', ht, h⟩
  · rintro (h | ⟨t', -, h⟩)
    · exact ⟨t, h⟩
    · exact ⟨t', h⟩

namespace Session

variable (s : Session)

def Watchdog : Prop := (∃ t, (s.transports.transportAt t).watched) ↔ .timeout ∈ s.messages

def KeepsWatch : Signal → Prop
  | .connecting t =>
    let transport := s.transports.transportAt t
    (transport.hasChannels && !transport.writable) ∨ ¬ s.transports.OtherWatched t
  | .writableState t state =>
    let transport := s.transports.transportAt t
    state = transport.writableState ∨
      if transport.hasChannels && state == .none then
        transport.signalledConnecting ∨ s.transports.OtherWatched t
      else ¬ s.transports.OtherWatched t

theorem transports_onTransportWritable (t : ℕ) : (s.onTransportWritable t).transports = s.transports := by
  unfold onTransportWritable
  dsimp only
  split <;> rfl

theorem timeout_onTransportWritable (t : ℕ) :
    .timeout ∈ (s.onTransportWritable t).messages ↔
      (s.transports.transportAt t).hasChannels && !(s.transports.transportAt t).writable := by
  unfold onTransportWritable
  dsimp only
  split <;> rename_i h <;> simp [post, h]

theorem watchdog_onTransportWritable (t : ℕ) :
    (s.onTransportWritable t).Watchdog ↔
      if (s.transports.transportAt t).hasChannels && !(s.transports.transportAt t).writable then
        (s.transports.transportAt t).signalledConnecting ∨ s.transports.OtherWatched t
      else ¬ s.transports.OtherWatched t := by
  have hwatched : (s.transports.transportAt t).watched =
      ((s.transports.transportAt t).hasChannels && !(s.transports.transportAt t).writable &&
        (s.transports.transportAt t).signalledConnecting) :=
    Bool.and_right_comm _ _ _
  unfold Watchdog
  rw [timeout_onTransportWritable, transports_onTransportWritable, Transports.exists_watched_iff _ t,
    hwatched]
  split <;> rename_i h
  · simp only [h, Bool.true_and, iff_true]
  · simp only [h, Bool.false_and, Bool.false_eq_true, false_or, iff_false]

theorem watchdog_onSignal (sig : Signal) (h : s.Watchdog) : (s.onSignal sig).Watchdog ↔ s.KeepsWatch sig := by
  cases sig with
  | connecting t =>
    unfold onSignal onConnecting
    rw [watchdog_onTransportWritable]
    simp only [Transports.otherWatched_modifyTransport, Transports.transportAt_modifyTransport, true_or,
      if_true_left]
    exact or_iff_not_imp_left.symm
  | writableState t state =>
    unfold onSignal onChannelWritableState KeepsWatch
    dsimp only
    split <;> rename_i hstate
    · rw [watchdog_onTransportWritable]
      simp only [Transports.otherWatched_modifyTransport, Transports.transportAt_modifyTransport,
        Ne.symm hstate, false_or]
      cases state <;> rfl
    · simp only [h, (not_not.mp hstate).symm, true_or]

/-- **The watchdog along a run**: all states are right exactly if the first is and every signal
keeps watch. -/
theorem watchdog_iff (sigs : List Signal) :
    (∀ pre, pre <+: sigs → (run onSignal s pre).Watchdog) ↔
      s.Watchdog ∧ Guarded onSignal KeepsWatch s sigs :=
  guarded_iff_invariant (I := Watchdog) (fun s sig h => s.watchdog_onSignal sig h) s sigs

/-- Two transports are connecting, and the second gets writable: nothing is pending any more. -/
theorem timeout_cleared :
    let caller := run step (new (text "caller") (text "caller"))
      [({}, .createChannel (text "audio") 1), ({}, .createChannel (text "video") 1),
        ({}, .initiate (text "callee") ⟨[text "audio", text "video"], [], []⟩)]
    let s := run onSignal caller [.connecting 0, .connecting 1, .writableState 1 .all]
    (s.transports.transportAt 0).watched ∧ .timeout ∉ s.messages ∧ ¬ s.Watchdog := by
  intro caller s
  have hwatched : (s.transports.transportAt 0).watched := by decide
  have hpending : .timeout ∉ s.messages := by decide
  exact ⟨hwatched, hpending, fun h => hpending (h.mp ⟨0, hwatched⟩)⟩

end Session

end Libjingle.Signaling
