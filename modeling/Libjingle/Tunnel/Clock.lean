import Libjingle.PseudoTcp.Deadlines
import Libjingle.PseudoTcp.LifeCycle
import Libjingle.Tunnel.Channel

/-!
# The clock of `PseudoTcpChannel`

Main results: **`Sound.perform`**, **`rearms_of_armed`**, **`clockKept_iff`**.
-/

namespace Libjingle

open Lib

namespace PseudoTcpChannel

variable {s s' : PseudoTcpChannel} {t : PseudoTcp} {op : Op}

def Armed (s : PseudoTcpChannel) : Prop :=
  ∀ timeout ∈ s.timeout, ∃ due ∈ s.clocks, (due : ℤ) ≤ s.now + max timeout 0

instance : Decidable s.Armed :=
  inferInstanceAs (Decidable (∀ timeout ∈ s.timeout, ∃ due ∈ s.clocks, (due : ℤ) ≤ s.now + max timeout 0))

/-- The operation ends in `AdjustClock`. -/
def adjusts (s : PseudoTcpChannel) : Op → Bool
  | .packet _ _ | .mtu _ | .destroyed => true
  | .clock => s.dueClock.isSome
  | .writable writable => s.readyToConnect && writable
  | .close => s.stream
  | .read _ | .write _ _ | .purge | .streamEvent => false

def starts (t : PseudoTcp) : Op → Bool
  | .read len => t.recvStarts len
  | .write data len => t.sendStarts data len
  | _ => false

/-- The operation re-arms the clock, or needs not. -/
def Rearms (s : PseudoTcpChannel) (op : Op) : Prop :=
  s.adjusts op ∨ ∀ t ∈ s.tcp, s.clocks ≠ [] ∧
    (s.stream ∧ starts t op → ∃ due ∈ s.clocks, (due : ℤ) ≤ s.now + max t.rxRto.toInt 0)

/-! ## Calls of the `PseudoTcp` -/

/-- What a call of the `PseudoTcp` leaves alone. -/
structure Frame (s s' : PseudoTcpChannel) : Prop where
  channel : s'.channel = s.channel
  stream : s'.stream = s.stream
  clocks : s'.clocks = s.clocks
  now : s'.now = s.now

theorem Frame.refl (s : PseudoTcpChannel) : Frame s s := ⟨rfl, rfl, rfl, rfl⟩

theorem Frame.callback (h : Frame s s') (e : Event) : Frame s (s'.callback e) := by
  unfold PseudoTcpChannel.callback
  cases e with
  | tcpWritePacket | logState => exact h
  | onTcpOpen | onTcpReadable | onTcpWriteable | onTcpClosed =>
    dsimp only
    by_cases hopen : s'.stream = true
    · rw [if_pos hopen]
      exact ⟨h.channel, h.stream, h.clocks, h.now⟩
    · rw [if_neg hopen]
      exact h

theorem Frame.callbacks (h : Frame s s') (events : List Event) :
    Frame s (events.foldl PseudoTcpChannel.callback s') := by
  induction events generalizing s' with
  | nil => exact h
  | cons e events ih => exact ih (h.callback e)

theorem Frame.call (s : PseudoTcpChannel) (t : PseudoTcp) (op : PseudoTcp.Op) : Frame s (s.call t op) :=
  have h := (Frame.refl s).callbacks (t.newEvents op)
  ⟨h.channel, h.stream, h.clocks, h.now⟩

/-! ## `AdjustClock` -/

theorem armed_of_timeout (h : s.timeout = none) : s.Armed := fun timeout ht => by
  rw [h] at ht
  cases ht

theorem timeout_of_tcp (h : s.tcp = none) : s.timeout = none := by rw [timeout, h]; rfl

theorem adjustClock_of_timeout {clear : Bool} (h : s.timeout = none) : (s.adjustClock clear).tcp = none := by
  rw [adjustClock, h]

theorem adjustClock_cases (s : PseudoTcpChannel) (clear : Bool) :
    (s.adjustClock clear).tcp = none ∨
      (s.adjustClock clear).Armed ∧ (s.adjustClock clear).clocks ≠ [] ∧
        (s.adjustClock clear).tcp = s.tcp ∧ (s.adjustClock clear).channel = s.channel ∧
        (s.adjustClock clear).stream = s.stream := by
  unfold adjustClock
  cases htimeout : s.timeout with
  | none => exact .inl rfl
  | some timeout =>
    refine .inr ⟨fun timeout' ht => ?_, List.append_ne_nil_of_right_ne_nil _ (List.cons_ne_nil _ _),
      rfl, rfl, rfl⟩
    obtain rfl : timeout = timeout' := Option.some_inj.mp (htimeout.symm.trans ht)
    refine ⟨_, List.mem_append_right _ List.mem_cons_self, ?_⟩
    push_cast
    rw [Int.toNat_of_nonneg (le_max_right timeout 0)]

/-! ## The invariant -/

/-- The invariant of the tunnel. -/
structure Sound (s : PseudoTcpChannel) : Prop where
  channel : s.channel = false → s.tcp = none
  stream : s.stream = true → ∀ t ∈ s.tcp, t.shutdown = .none
  pending : s.stream = false → s.tcp = none ∨ s.clocks ≠ []
  armed : s.clocks ≠ [] → s.Armed

theorem Sound.of_none (h : s.tcp = none) : Sound s where
  channel _ := h
  stream _ t ht := by rw [h] at ht; cases ht
  pending _ := .inl h
  armed _ := armed_of_timeout (timeout_of_tcp h)

theorem Armed.enter (h : s.Armed) (elapsed : ℕ) (results : ℕ → WriteResult) : (s.enter elapsed results).Armed := by
  intro timeout ht
  obtain ⟨t', ht', hnext⟩ := Option.bind_eq_some_iff.mp ht
  obtain ⟨t, htcp, rfl⟩ := Option.map_eq_some_iff.mp ht'
  have hnow : timeReading (s.enter elapsed results).now =
      timeReading s.now + BitVec.ofNat 32 elapsed := BitVec.ofNat_add _ _
  rw [hnow] at hnext
  replace hnext : t.getNextClock (timeReading s.now + BitVec.ofNat 32 elapsed) = some timeout := hnext
  change ∃ due ∈ s.clocks, (due : ℤ) ≤ (s.now + elapsed : ℕ) + max timeout 0
  have hbefore (timeout' : ℤ) (h' : t.getNextClock (timeReading s.now) = some timeout') :
      ∃ due ∈ s.clocks, (due : ℤ) ≤ s.now + max timeout' 0 :=
    h timeout' (by rw [PseudoTcpChannel.timeout, htcp]; exact h')
  rcases t.getNextClock_cases with ⟨-, hnone⟩ | ⟨-, hclosed⟩ | ⟨-, hopen⟩
  · rw [hnone] at hnext
    cases hnext
  · obtain ⟨due, hmem, hdue⟩ := hbefore _ (hclosed _)
    rw [hclosed] at hnext
    cases hnext
    exact ⟨due, hmem, by omega⟩
  · obtain ⟨due, hmem, hdue⟩ := hbefore _ (hopen _)
    rw [hopen] at hnext
    cases hnext
    refine ⟨due, hmem, ?_⟩
    by_cases hleft : (elapsed : ℤ) ≤ t.timeLeft (timeReading s.now)
    · have hlater := t.timeLeft_later hleft
      omega
    · omega

theorem Sound.enter (h : Sound s) (elapsed : ℕ) (results : ℕ → WriteResult) :
    Sound (s.enter elapsed results) where
  channel hc := by rw [PseudoTcpChannel.enter, h.channel hc]; rfl
  stream hs t' ht' := by
    obtain ⟨t, ht, rfl⟩ := Option.map_eq_some_iff.mp ht'
    exact h.stream hs t ht
  pending hs := (h.pending hs).imp_left fun ht => by rw [PseudoTcpChannel.enter, ht]; rfl
  armed hc := (h.armed hc).enter elapsed results

/-! ## One operation -/

/-- The end of an operation that re-arms the clock after a call of the `PseudoTcp`. -/
structure Adjusted (s : PseudoTcpChannel) (t : PseudoTcp) (s' : PseudoTcpChannel) : Prop where
  armed : s'.Armed
  clocks : s'.clocks ≠ []
  channel : s'.channel = true
  shutdown : s'.stream = true → s.stream = true ∧ ∀ t' ∈ s'.tcp, t'.shutdown = t.shutdown

theorem adjusted_call (s s₁ : PseudoTcpChannel) (hchannel : s₁.channel = true) (pop : PseudoTcp.Op)
    (hstream : s₁.stream = true → s.stream = true ∧ ∀ force, pop ≠ .close force) (clear : Bool) :
    ((s₁.call t pop).adjustClock clear).tcp = none ∨
      Adjusted s t ((s₁.call t pop).adjustClock clear) := by
  have hframe := Frame.call s₁ t pop
  refine (adjustClock_cases (s₁.call t pop) clear).imp_right ?_
  rintro ⟨harmed, hclocks, htcp, hch, hst⟩
  refine ⟨harmed, hclocks, hch.trans (hframe.channel.trans hchannel), fun hs => ?_⟩
  obtain ⟨hopen, hpop⟩ := hstream (hframe.stream ▸ hst ▸ hs)
  refine ⟨hopen, fun t' ht' => ?_⟩
  rw [htcp] at ht'
  obtain rfl : t.step pop = t' := Option.some_inj.mp ht'
  exact t.shutdown_step pop hpop

theorem onChannel_of_tcp (hchannel : s.channel = true) (ht : s.tcp = some t) (pop : PseudoTcp.Op) :
    s.onChannel pop = (s.call t pop).adjustClock true := by
  rw [onChannel, if_pos hchannel, ht]

theorem onClock_of_tcp (ht : s.tcp = some t) :
    s.onClock = (s.call t (.notifyClock (timeReading s.now))).adjustClock false := by
  rw [onClock, ht]

theorem close_of_tcp (ht : s.tcp = some t) :
    s.close = ({ s with stream := false, events := [] }.call t (.close false)).adjustClock true := by
  simp only [close, ht]

theorem onChannelDestroyed_tcp (ht : s.tcp = some t) : s.onChannelDestroyed.tcp = none := by
  simp only [onChannelDestroyed, ht]
  exact adjustClock_of_timeout rfl

theorem perform_adjusts (h : Sound s) (ht : s.tcp = some t) (hop : s.adjusts op = true) :
    (s.perform op).tcp = none ∨ Adjusted s t (s.perform op) := by
  have hchannel : s.channel = true := by
    by_contra hnot
    have hnone := h.channel (Bool.not_eq_true _ ▸ hnot)
    rw [ht] at hnone
    cases hnone
  have honChannel (pop : PseudoTcp.Op) (hpop : ∀ force, pop ≠ .close force) :
      (s.onChannel pop).tcp = none ∨ Adjusted s t (s.onChannel pop) := by
    rw [onChannel_of_tcp hchannel ht]
    exact adjusted_call s s hchannel pop (fun hs => ⟨hs, hpop⟩) true
  cases op with
  | packet data size => exact honChannel _ nofun
  | mtu mtu => exact honChannel _ nofun
  | clock =>
    obtain ⟨due, hdue⟩ := Option.isSome_iff_exists.mp hop
    rw [perform, hdue]
    dsimp only
    rw [onClock_of_tcp (s := { s with clocks := s.clocks.erase due }) ht]
    exact adjusted_call s { s with clocks := s.clocks.erase due } hchannel
      (.notifyClock (timeReading s.now)) (fun hs => ⟨hs, nofun⟩) false
  | writable writable =>
    have hready : s.channel ∧ s.tcp.isSome ∧ s.readyToConnect ∧ writable := by
      simpa [adjusts, hchannel, ht] using hop
    rw [perform, onChannelWritableState, if_pos hready,
      onChannel_of_tcp (s := { s with readyToConnect := false }) hchannel ht]
    exact adjusted_call s { s with readyToConnect := false } hchannel .connect (fun hs => ⟨hs, nofun⟩) true
  | close =>
    rw [perform, if_pos (show s.stream = true from hop), close_of_tcp ht]
    exact adjusted_call s { s with stream := false, events := [] } hchannel (.close false) nofun true
  | destroyed =>
    rw [perform, if_pos hchannel]
    exact .inl (onChannelDestroyed_tcp ht)
  | read | write | purge | streamEvent => cases hop

/-- What `Read` and `Write` make of the `PseudoTcp`. -/
def after (s : PseudoTcpChannel) (t : PseudoTcp) : Op → PseudoTcp
  | .read len => if s.stream then (t.recv len).1 else t
  | .write data len => if s.stream then (t.send data len).1 else t
  | _ => t

theorem perform_not_adjusts (ht : s.tcp = some t) (hop : s.adjusts op = false) :
    Frame s (s.perform op) ∧ (s.perform op).tcp = some (s.after t op) := by
  cases op with
  | read len =>
    rw [perform, after]
    split_ifs
    · have hframe (s₁ : PseudoTcpChannel) := Frame.call s₁ t (.recv len)
      rw [read, ht]
      dsimp only
      split
      · exact ⟨⟨(hframe _).channel, (hframe _).stream, (hframe _).clocks, (hframe _).now⟩, rfl⟩
      · exact ⟨⟨(hframe _).channel, (hframe _).stream, (hframe _).clocks, (hframe _).now⟩, rfl⟩
    · exact ⟨.refl s, ht⟩
  | write data len =>
    rw [perform, after]
    split_ifs
    · have hframe := Frame.call s t (.send data len)
      rw [write, ht]
      dsimp only
      split_ifs
      · exact ⟨hframe, rfl⟩
      · exact ⟨hframe, rfl⟩
    · exact ⟨.refl s, ht⟩
  | clock =>
    have hnone : s.dueClock = none := Option.isSome_eq_false_iff.mp hop |> Option.isNone_iff_eq_none.mp
    rw [perform, hnone]
    exact ⟨.refl s, ht⟩
  | writable writable =>
    rw [perform, onChannelWritableState, if_neg (by simp_all [adjusts])]
    exact ⟨.refl s, ht⟩
  | close =>
    rw [perform, if_neg (show ¬ s.stream = true from Bool.eq_false_iff.mp hop)]
    exact ⟨.refl s, ht⟩
  | purge =>
    rw [perform]
    split_ifs
    · unfold onPurge checkDestroy
      split_ifs <;> exact ⟨⟨rfl, rfl, rfl, rfl⟩, ht⟩
    · exact ⟨.refl s, ht⟩
  | streamEvent =>
    rw [perform]
    split
    · unfold onStreamEvent
      split_ifs <;> exact ⟨⟨rfl, rfl, rfl, rfl⟩, ht⟩
    · exact ⟨.refl s, ht⟩
  | packet | mtu | destroyed => cases hop

theorem after_of_closed (h : ¬ s.stream = true) : s.after t op = t := by
  cases op with
  | read | write => exact if_neg h
  | packet | clock | mtu | writable | close | destroyed | purge | streamEvent => rfl

theorem after_settles (hnow : t.now = timeReading s.now) (op : Op) :
    PseudoTcp.Settles (timeReading s.now) t (s.after t op) (s.stream && starts t op) ∧
      (s.after t op).shutdown = t.shutdown := by
  rw [← hnow]
  by_cases hstream : s.stream = true
  · rw [hstream, Bool.true_and]
    cases op with
    | read len =>
      rw [after, if_pos hstream]
      exact ⟨t.recv_settles len, t.shutdown_step (.recv len) nofun⟩
    | write data len =>
      rw [after, if_pos hstream]
      exact ⟨t.send_settles data len, t.shutdown_step (.send data len) nofun⟩
    | packet | clock | mtu | writable | close | destroyed | purge | streamEvent =>
      exact ⟨.of_eq rfl rfl, rfl⟩
  · rw [Bool.eq_false_iff.mpr hstream, Bool.false_and, after_of_closed hstream]
    exact ⟨.of_eq rfl rfl, rfl⟩

theorem timeout_eq (ht : s.tcp = some t) : s.timeout = t.getNextClock (timeReading s.now) := by
  rw [timeout, ht]
  rfl

theorem established_of_starts (h : starts t op = true) : t.state = .established := by
  cases op with
  | read len => exact of_decide_eq_true (Bool.and_eq_true_iff.mp h).1
  | write data len =>
    exact of_decide_eq_true (Bool.and_eq_true_iff.mp (Bool.and_eq_true_iff.mp h).1).1
  | packet | clock | mtu | writable | close | destroyed | purge | streamEvent => cases h

section NoAdjustment

variable {t' : PseudoTcp} {started : Bool} (hframe : Frame s s') (ht' : s'.tcp = some t')
  (hsettles : PseudoTcp.Settles (timeReading s.now) t t' started)

include hframe ht' hsettles

theorem armed_of_due (ht : s.tcp = some t) (hshutdown : t.shutdown = .none) (harmed : s.Armed)
    (hdue : started = true → ∃ due ∈ s.clocks, (due : ℤ) ≤ s.now + max t.rxRto.toInt 0) : s'.Armed := by
  intro timeout htimeout
  rw [timeout_eq ht', hframe.now] at htimeout
  rw [hframe.clocks, hframe.now]
  rw [Armed, timeout_eq ht] at harmed
  rcases t.getNextClock_cases.resolve_left fun h => h.1 hshutdown with ⟨hclosed, hval⟩ | ⟨hopen, hval⟩
  · have hclosed' : t'.state = .closed := hsettles.state.trans hclosed
    rcases t'.getNextClock_cases with ⟨-, hnone⟩ | ⟨-, hval'⟩ | ⟨hopen', -⟩
    · rw [hnone] at htimeout
      cases htimeout
    · exact harmed timeout ((hval _).trans ((hval' _).symm.trans htimeout))
    · exact absurd hclosed' hopen'
  · obtain ⟨due, hmem, hle⟩ := harmed _ (hval _)
    have htimeout' : timeout = t'.timeLeft (timeReading s.now) := by
      rcases t'.getNextClock_cases with ⟨-, hnone⟩ | ⟨hclosed', -⟩ | ⟨-, hval'⟩
      · rw [hnone] at htimeout
        cases htimeout
      · exact absurd (hsettles.state.symm.trans hclosed') hopen
      · exact Option.some_inj.mp (htimeout.symm.trans (hval' _))
    rw [htimeout']
    cases started with
    | true =>
      obtain ⟨due', hmem', hle'⟩ := hdue rfl
      have hdefault : t.timeLeft (timeReading s.now) ≤ defaultTimeout := PseudoTcp.timeLeft_le_default
      rw [PseudoTcp.timeLeft_started (hsettles.started rfl)]
      rcases min_choice defaultTimeout t.rxRto.toInt with hmin | hmin
      · exact ⟨due, hmem, by omega⟩
      · exact ⟨due', hmem', by omega⟩
    | false =>
      have hmore : t.timeLeft (timeReading s.now) ≤ t'.timeLeft (timeReading s.now) :=
        PseudoTcp.timeLeft_anti (hsettles.idle rfl)
      exact ⟨due, hmem, by omega⟩

theorem due_of_armed (hstarted : started = true → t.state ≠ .closed)
    (hshutdown' : t'.shutdown = .none) (harmed : s'.Armed) :
    s.clocks ≠ [] ∧ (started = true → ∃ due ∈ s.clocks, (due : ℤ) ≤ s.now + max t.rxRto.toInt 0) := by
  rw [Armed, timeout_eq ht', hframe.clocks, hframe.now] at harmed
  rcases t'.getNextClock_cases.resolve_left fun h => h.1 hshutdown' with ⟨hclosed, hval⟩ | ⟨-, hval⟩
  · obtain ⟨due, hmem, -⟩ := harmed _ (hval _)
    exact ⟨List.ne_nil_of_mem hmem, fun hs => absurd (hsettles.state.symm.trans hclosed) (hstarted hs)⟩
  · obtain ⟨due, hmem, hle⟩ := harmed _ (hval _)
    refine ⟨List.ne_nil_of_mem hmem, fun hs => ⟨due, hmem, ?_⟩⟩
    rw [PseudoTcp.timeLeft_started (hsettles.started hs)] at hle
    omega

end NoAdjustment

/-! ## Runs -/

def Timely (s : PseudoTcpChannel) : Prop := ∀ t ∈ s.tcp, t.now = timeReading s.now

theorem timely_enter (s : PseudoTcpChannel) (elapsed : ℕ) (results : ℕ → WriteResult) :
    (s.enter elapsed results).Timely := by
  intro t' ht'
  obtain ⟨t, -, rfl⟩ := Option.map_eq_some_iff.mp ht'
  rfl

theorem perform_none (h : s.tcp = none) (op : Op) : (s.perform op).tcp = none := by
  have honChannel (pop : PseudoTcp.Op) : (s.onChannel pop).tcp = none := by
    rw [onChannel, h]
    split_ifs <;> exact h
  cases op with
  | read len =>
    rw [perform]
    split_ifs
    · rw [read, h]
      exact h
    · exact h
  | write data len =>
    rw [perform]
    split_ifs
    · rw [write, h]
      exact h
    · exact h
  | packet data size => exact honChannel _
  | mtu mtu => exact honChannel _
  | clock =>
    rw [perform]
    split
    · simp only [onClock, h]
    · exact h
  | writable writable =>
    rw [perform, onChannelWritableState, if_neg (by simp [h])]
    exact h
  | close =>
    rw [perform]
    split_ifs
    · simp only [close, h, checkDestroy]
      split_ifs <;> rfl
    · exact h
  | destroyed =>
    rw [perform]
    split_ifs
    · simp only [onChannelDestroyed, h]
    · exact h
  | purge =>
    rw [perform]
    split_ifs
    · unfold onPurge checkDestroy
      split_ifs <;> exact h
    · exact h
  | streamEvent =>
    rw [perform]
    split
    · unfold onStreamEvent
      split_ifs <;> exact h
    · exact h

theorem Sound.perform (h : Sound s) (hnow : s.Timely) (hop : s.Rearms op) :
    Sound (s.perform op) ∧ (s.perform op).Armed := by
  cases ht : s.tcp with
  | none =>
    have hnone := perform_none ht op
    exact ⟨.of_none hnone, armed_of_timeout (timeout_of_tcp hnone)⟩
  | some t =>
    by_cases hadjusts : s.adjusts op = true
    · rcases perform_adjusts h ht hadjusts with hnone | hdone
      · exact ⟨.of_none hnone, armed_of_timeout (timeout_of_tcp hnone)⟩
      · refine ⟨⟨fun hc => ?_, fun hs t' ht' => ?_, fun _ => .inr hdone.clocks, fun _ => hdone.armed⟩,
          hdone.armed⟩
        · rw [hdone.channel] at hc
          cases hc
        · obtain ⟨hstream, hshutdown⟩ := hdone.shutdown hs
          exact (hshutdown t' ht').trans (h.stream hstream t ht)
    · obtain ⟨hclocks, hdue⟩ := hop.resolve_left hadjusts t ht
      obtain ⟨hframe, ht'⟩ := perform_not_adjusts ht (Bool.eq_false_iff.mpr hadjusts)
      obtain ⟨hsettles, hshutdown⟩ := after_settles (hnow t ht) op
      have harmed : (s.perform op).Armed := by
        by_cases hstream : s.stream = true
        · refine armed_of_due hframe ht' hsettles ht (h.stream hstream t ht) (h.armed hclocks) fun hs => ?_
          exact hdue (Bool.and_eq_true_iff.mp hs)
        · rw [after_of_closed hstream] at ht'
          rw [Armed, timeout_eq ht', hframe.now, hframe.clocks, ← timeout_eq ht]
          exact h.armed hclocks
      refine ⟨⟨fun hc => ?_, fun hs t' heq => ?_, fun _ => .inr (hframe.clocks ▸ hclocks), fun _ => harmed⟩,
        harmed⟩
      · have hnone := h.channel (hframe.channel ▸ hc)
        rw [ht] at hnone
        cases hnone
      · obtain rfl := Option.some_inj.mp (ht'.symm.trans heq)
        exact hshutdown.trans (h.stream (hframe.stream ▸ hs) t ht)

theorem rearms_of_armed (h : Sound s) (hnow : s.Timely) (harmed : (s.perform op).Armed) : s.Rearms op := by
  by_cases hadjusts : s.adjusts op = true
  · exact .inl hadjusts
  refine .inr fun t ht => ?_
  obtain ⟨hframe, ht'⟩ := perform_not_adjusts ht (Bool.eq_false_iff.mpr hadjusts)
  obtain ⟨hsettles, hshutdown⟩ := after_settles (hnow t ht) op
  by_cases hstream : s.stream = true
  · have hestablished (hs : (s.stream && starts t op) = true) : t.state ≠ .closed := by
      rw [established_of_starts (Bool.and_eq_true_iff.mp hs).2]
      decide
    obtain ⟨hclocks, hdue⟩ := due_of_armed hframe ht' hsettles hestablished
      (hshutdown.trans (h.stream hstream t ht)) harmed
    exact ⟨hclocks, fun hs => hdue (Bool.and_eq_true_iff.mpr hs)⟩
  · refine ⟨(h.pending (Bool.eq_false_iff.mpr hstream)).resolve_left ?_, fun hs => absurd hs.1 hstream⟩
    rw [ht]
    exact nofun

theorem setOptions_shutdown (options : List (TcpOption × ℤ)) (t : PseudoTcp) :
    (options.foldl (fun t o => t.setOption o.1 o.2) t).shutdown = t.shutdown := by
  induction options generalizing t with
  | nil => rfl
  | cons o options ih => exact (ih _).trans (t.shutdown_step (.setOption o.1 o.2) nofun)

theorem sound_connected (now : ℕ) (heap : ℕ → Uint8) (initiator : Bool) (options : List (TcpOption × ℤ)) :
    Sound (connected now heap initiator options) where
  channel := nofun
  stream _ t ht := by
    obtain rfl := Option.some_inj.mp ht
    exact setOptions_shutdown options _
  pending := nofun
  armed h := absurd rfl h

/-- **The clock is kept running** through a run if and only if each operation re-arms it. -/
theorem clockKept_iff (now : ℕ) (heap : ℕ → Uint8) (initiator : Bool) (options : List (TcpOption × ℤ))
    (calls : List Call) :
    (∀ pre c, pre ++ [c] <+: calls → (run step (connected now heap initiator options) (pre ++ [c])).Armed) ↔
      Guarded step (fun s c => (s.enter c.elapsed c.results).Rearms c.op)
        (connected now heap initiator options) calls := by
  have hkeep (s : PseudoTcpChannel) (c : Call) (h : Sound s)
      (hc : (s.enter c.elapsed c.results).Rearms c.op) : Sound (s.step c) ∧ (s.step c).Armed :=
    (h.enter c.elapsed c.results).perform (timely_enter s c.elapsed c.results) hc
  refine guarded_iff_after (I := Sound) (fun s c h hc => (hkeep s c h hc).1)
    (fun s c h hc => (hkeep s c h hc).2) (fun s c h harmed => ?_)
    (sound_connected now heap initiator options)
  exact rearms_of_armed (h.enter c.elapsed c.results) (timely_enter s c.elapsed c.results) harmed

def lateCalls : List Call :=
  [⟨0, fun _ => .success, .writable true⟩,
    ⟨100, fun _ => .success,
      .packet (ptr PseudoTcp.connectReply.toBytes) PseudoTcp.connectReply.toBytes.length⟩,
    ⟨100, fun _ => .success, .clock⟩,
    ⟨100, fun _ => .success, .write (fun _ => 1) 1⟩]

/-- **`Write` leaves the clock late**, by 900 ms. -/
theorem clock_late :
    ¬ ∀ (now : ℕ) (heap : ℕ → Uint8) (initiator : Bool) (options : List (TcpOption × ℤ)) (calls pre : List Call)
      (c : Call), pre ++ [c] <+: calls →
        (run step (connected now heap initiator options) (pre ++ [c])).Armed := by
  intro h
  have hlate := h 1000 (fun _ => 0) true [] lateCalls (lateCalls.take 3)
    ⟨100, fun _ => .success, .write (fun _ => 1) 1⟩ List.prefix_rfl
  exact absurd hlate (by decide)

end PseudoTcpChannel

end Libjingle
