import AlpacaCpp.Streaming.StreamBase
import Mathlib.Tactic.MkIffOfInductiveProp

/-!
# The reconnect thread against a live session and against `disconnect`

`connect` and `reconnect_loop` both store `connecting` and both open the one socket, and nothing but
the flags behind `mutex_` keeps them apart. Two promises depend on it: that a session which has become
ready is left alone until the socket drops or the user ends it, and that `disconnect` cancels a
reconnect for good. Neither is kept in every interleaving; for both, the state in which the promise
is made decides, and the two main results say exactly which states are the good ones.

* `undisturbed_iff_quiet`: a session is left alone if and only if nothing that was started before it
  became ready is still on its way to the socket (`Quiet`). A back-off that is still running when the
  user's own `connect` succeeds is the case that goes wrong.
* `final_iff_not_reopening`: a `disconnect` is final if and only if, when it returns, the reconnect
  thread does not stand between giving the mutex back and its `ws.open()`.

Each has two directions. A good state stays good over every label of the interval in question
(`Quiet.step`, `Cancelled`), so nothing bad happens in any run. From a state that is not good there is a
run to the bad end, with no label outside the interval: whatever is on its way to the socket can go there
(`Disturbs`). That is shown backwards, from the last step to the first, one lemma for each place a thread
may stand in.

Both results are equivalences between a promise about all continuations of a run and a condition on one
state. The condition can be evaluated, so the witnesses are runs, and the state at their end is tested.
-/

namespace Alpaca

/-- A user thread that is not on its way through `connect` to the socket. -/
def CallerPc.Quiet (stopping : Bool) : CallerPc → Prop
  | .connectLock => stopping
  | .connectStore | .connectOpen => False
  | _ => True

instance (stopping : Bool) : DecidablePred (CallerPc.Quiet stopping)
  | .connectLock => inferInstanceAs (Decidable (stopping = true))
  | .connectStore | .connectOpen => inferInstanceAs (Decidable False)
  | .idle | .connectWait | .disconnectClose | .disconnectReturn | .shutdownJoin | .shutdownClose
  | .shutdownReturn => inferInstanceAs (Decidable True)

namespace StreamBase

open Machine

variable {s t u : StreamBase} {a : Action} {i : ℕ} {pc : CallerPc}

/-! ### Classes of labels

The promises hold until something ends them, and what may end them is a class of labels: a `connect`, an
opening of the socket, the end of the session. The classes are decidable, so that a run can be checked
against them. -/

/-- A call of `connect`. -/
def Action.isConnect : Action → Bool
  | .callConnect _ => true
  | _ => false

/-- A call of `ws.open()`. -/
def Action.isOpen : Action → Bool
  | .connectOpen _ | .reconnectOpen => true
  | _ => false

/-- What a session may end with: the socket-disconnected callback, `disconnect`, `shutdown`. -/
def Action.isEnd : Action → Bool
  | .socketDisconnected | .disconnectLock _ | .disconnectClose _ | .disconnectReturn _
  | .shutdownLock _ | .shutdownJoin _ | .shutdownClose _ | .shutdownReturn _ => true
  | _ => false

/-- The user calls `connect` only while the stream is not ready. -/
def ConnectsWhileDown (s : StreamBase) (a : Action) : Prop := a.isConnect → s.state ≠ .ready

instance (s : StreamBase) (a : Action) : Decidable (ConnectsWhileDown s a) :=
  inferInstanceAs (Decidable (_ → _))

/-! ### Quiet states

A caller is quiet outside `connect`, and in it where it only waits, or where it is going to find the
stream stopping. The reconnect thread is quiet where it sleeps without a request, or where its request or
its back-off is going to be dropped because the stream is closing; and the socket owes no answer to an
`open`. -/

/-- No user thread is on its way through `connect` to the socket. -/
def QuietCallers (s : StreamBase) : Prop := ∀ pc ∈ s.callers, pc.Quiet s.stopping

instance (s : StreamBase) : Decidable (QuietCallers s) :=
  inferInstanceAs (Decidable (∀ pc ∈ s.callers, pc.Quiet s.stopping))

/-- The reconnect thread is not on its way to the socket. -/
def QuietThread (s : StreamBase) : Prop :=
  match s.reconnectThread with
  | .notStarted | .exited => True
  | .waiting => s.reconnectPending → s.stopping ∨ s.closing
  | .backingOff _ => s.stopping ∨ s.closing
  | .unlocking | .storing | .opening => False

instance (s : StreamBase) : Decidable (QuietThread s) := by
  unfold QuietThread
  exact match s.reconnectThread with
  | .notStarted | .exited => inferInstanceAs (Decidable True)
  | .waiting => inferInstanceAs (Decidable (_ → _))
  | .backingOff _ => inferInstanceAs (Decidable (_ ∨ _))
  | .unlocking | .storing | .opening => inferInstanceAs (Decidable False)

/-- Nothing that has been started is still on its way to the socket. -/
@[mk_iff] structure Quiet (s : StreamBase) : Prop where
  callers : s.QuietCallers
  thread : s.QuietThread
  opens : s.opens = 0

instance (s : StreamBase) : Decidable (Quiet s) := decidable_of_iff' _ (quiet_iff s)

theorem QuietCallers.callerAt (hs : s.QuietCallers) (hi : s.CallerAt i pc) :
    pc.Quiet s.stopping := hs pc (List.mem_of_getElem? hi)

/-- A thread that moves to a quiet place leaves the others as they are. -/
theorem QuietCallers.setCaller (hs : s.QuietCallers) (hpc : pc.Quiet s.stopping) :
    (s.setCaller i pc).QuietCallers := by
  intro pc' hpc'
  rcases List.mem_or_eq_of_mem_set hpc' with hmem | rfl
  · exact hs pc' hmem
  · exact hpc

/-- A `connect` that finds the stream stopping returns at once. -/
theorem QuietCallers.connectSection (hs : s.QuietCallers) (hi : s.CallerAt i .connectLock) :
    s.connectSection i = s.setCaller i .idle := if_pos (hs.callerAt hi)

/-! ### A quiet session stays quiet

Every label that is allowed in the session is looked at once. None of them lets a caller pass the test of
`connect`, and none makes a request, because a request comes only from a drop. So no label stores
`connecting`, and none opens the socket. -/

/-- A reconnect request that is still pending is one the thread will not serve. -/
theorem Quiet.of_waiting (hs : s.Quiet) (h : s.reconnectThread = .waiting) :
    s.reconnectPending → s.stopping ∨ s.closing := by
  have hthread := hs.thread
  rwa [QuietThread, h] at hthread

/-- A back-off in a quiet state is about to be interrupted. -/
theorem Quiet.of_backingOff (hs : s.Quiet) (h : s.reconnectThread.isBackingOff) :
    s.stopping ∨ s.closing := by
  have hthread := hs.thread
  unfold QuietThread at hthread
  cases hpc : s.reconnectThread <;> simp_all [ReconnectPc.isBackingOff]

/-- A reconnect thread that wakes up leaves the state quiet. -/
theorem Quiet.wakeSection (hs : s.Quiet) (hwaiting : s.reconnectThread = .waiting)
    (hwake : s.stopping ∨ s.reconnectPending) : s.wakeSection.Quiet := by
  unfold StreamBase.wakeSection
  split
  case isTrue => exact ⟨hs.callers, trivial, hs.opens⟩
  case isFalse hstopping =>
    have hclosing : s.closing = true :=
      (hs.of_waiting hwaiting (hwake.resolve_left hstopping)).resolve_left hstopping
    rw [if_pos hclosing]
    exact ⟨hs.callers, fun _ ↦ .inr hclosing, hs.opens⟩

/-- A back-off that is interrupted leaves the state quiet. -/
theorem Quiet.interruptSection (hs : s.Quiet) (hwake : s.stopping ∨ s.closing) :
    s.interruptSection.Quiet := by
  refine ⟨hs.callers, ?_, hs.opens⟩
  unfold QuietThread StreamBase.interruptSection
  by_cases hstopping : s.stopping = true
  · rw [if_pos hstopping]
    trivial
  · rw [if_neg hstopping]
    exact fun _ ↦ hwake

/-- Behind its back-off the reconnect thread is not quiet. -/
theorem Quiet.not_reopening (hs : s.Quiet) {pc : ReconnectPc}
    (hpc : pc = .unlocking ∨ pc = .storing ∨ pc = .opening) : s.reconnectThread ≠ pc := by
  rintro rfl
  have hthread := hs.thread
  rcases hpc with h | h | h <;> rw [QuietThread, h] at hthread <;> exact hthread

/-- **Step lemma.** Until the session ends or `connect` is called, a quiet stream stays quiet. -/
theorem Quiet.step (hs : s.Quiet) (hservice : s.service ≠ .scheduleReconnect)
    (hconnect : ¬ a.isConnect) (hend : ¬ a.isEnd) (h : s.step a = some t) : t.Quiet := by
  obtain ⟨hcallers, hthread, hopens⟩ := id hs
  cases a <;> rw [StreamBase.step, whenever_eq_some] at h <;> obtain ⟨hg, rfl⟩ := h
  case callConnect i => exact absurd rfl hconnect
  case connectLock i =>
    rw [hcallers.connectSection hg.1]
    exact ⟨hcallers.setCaller trivial, hthread, hopens⟩
  case connectStore i => exact (hcallers.callerAt hg).elim
  case connectOpen i => exact (hcallers.callerAt hg).elim
  case connectReturn i => exact ⟨hcallers.setCaller trivial, hthread, hopens⟩
  case reconnectWake => exact hs.wakeSection hg.1 hg.2
  case reconnectInterrupt => exact hs.interruptSection hg.2
  case reconnectTimeout => exact absurd (hs.of_backingOff hg.1) hg.2
  case reconnectUnlock => exact absurd hg (hs.not_reopening (.inl rfl))
  case reconnectStore => exact absurd hg (hs.not_reopening (.inr (.inl rfl)))
  case reconnectOpen => exact absurd hg (hs.not_reopening (.inr (.inr rfl)))
  case openFailed => exact absurd hopens (Nat.ne_of_gt hg)
  case socketConnected => exact absurd hopens (Nat.ne_of_gt hg.2)
  case scheduleReconnect => exact absurd hg.1 hservice
  case setReconnectPolicy | sendAuth | storeReady | resetAttempt | onReadyReturn | reportError |
      failAuth => exact ⟨hcallers, hthread, hopens⟩
  -- The rest belongs to `disconnect`, to `shutdown` or to a socket that drops.
  all_goals exact absurd rfl hend

/-- In a quiet stream nobody opens a socket. -/
theorem Quiet.not_isOpen (hs : s.Quiet) (h : s.step a = some t) : ¬ a.isOpen := by
  intro hopen
  cases a
  case connectOpen i => exact hs.callers.callerAt (whenever_eq_some.1 h).1
  case reconnectOpen => exact hs.not_reopening (.inr (.inr rfl)) (whenever_eq_some.1 h).1
  all_goals exact Bool.false_ne_true hopen

/-- Until the session ends, nobody but `mark_ready` stores a state in a quiet stream. -/
theorem Quiet.stores (hs : s.Quiet) (hend : ¬ a.isEnd) (h : s.step a = some t) :
    a.stores = none ∨ a.stores = some .ready := by
  cases a
  case connectStore i => exact (hs.callers.callerAt (whenever_eq_some.1 h).1).elim
  case reconnectStore =>
    exact absurd (whenever_eq_some.1 h).1 (hs.not_reopening (.inr (.inl rfl)))
  case socketConnected => exact absurd hs.opens (Nat.ne_of_gt (whenever_eq_some.1 h).1.2)
  case disconnectReturn i | shutdownReturn i => exact absurd rfl hend
  case socketDisconnected => exact absurd rfl hend
  case storeReady => exact .inr rfl
  all_goals exact .inl rfl

/-- A ready session that nothing is on its way to disturb. -/
structure Undisturbed (s : StreamBase) : Prop where
  state : s.state = .ready
  quiet : s.Quiet
  service : s.service ≠ .scheduleReconnect

/-- **Step lemma.** While nothing ends the session and the user does not call `connect` again, the
session stays as it is. -/
theorem Undisturbed.step (hs : s.Undisturbed) (hconnect : ConnectsWhileDown s a)
    (hend : ¬ a.isEnd) (h : s.step a = some t) : t.Undisturbed where
  state := by
    rw [state_of_step h]
    rcases hs.quiet.stores hend h with hnone | hready
    · rw [hnone]
      exact hs.state
    · rw [hready]
      rfl
  quiet := hs.quiet.step hs.service (fun hc ↦ hconnect hc hs.state) hend h
  service := by
    rw [service_of_step h]
    cases a
    case socketDisconnected => exact absurd rfl hend
    all_goals simp [Action.serves, hs.service]

/-- **Run lemma.** -/
theorem Undisturbed.run (hs : s.Undisturbed) {mid : List Action} (hend : ∀ a ∈ mid, ¬ a.isEnd)
    (h : machine.RunsUnder ConnectsWhileDown s mid u) :
    u.state = .ready ∧ ∀ a ∈ mid, ¬ a.isOpen := by
  have hstep : ∀ s a t, Undisturbed s → ConnectsWhileDown s a ∧ ¬ a.isEnd →
      machine.step s a = some t → ¬ a.isOpen ∧ t.Undisturbed :=
    fun s a t hs hC h ↦ ⟨hs.quiet.not_isOpen h, hs.step hC.1 hC.2 h⟩
  have hrun := h.and_forall hend
  exact ⟨(hrun.invariant (fun s a t hs hC h ↦ (hstep s a t hs hC h).2) hs).state,
    hrun.forall_mem hstep hs⟩

/-! ### What is on its way arrives

A state disturbs a session if some run from it, inside the interval, stores `connecting` or opens the
socket. The places of the two threads are taken from the nearest to the farthest: at the opening, at the
store in front of it, at the unlocking, in the back-off, behind a pending request, and for a caller inside
`connect`. -/

/-- A run that disturbs the session `t`. -/
def Disturbs (t : StreamBase) : Prop :=
  ∃ mid u, (∀ a ∈ mid, ¬ a.isEnd) ∧ machine.RunsUnder ConnectsWhileDown t mid u ∧
    (u.state ≠ .ready ∨ ∃ a ∈ mid, a.isOpen)

/-- What disturbs a session later does so now. -/
theorem Disturbs.of_step (ht : t.Disturbs) (h : s.step a = some t) (hend : a.isEnd = false)
    (hconnect : a.isConnect = false) : s.Disturbs := by
  obtain ⟨mid, u, hmid, hrun, hbad⟩ := ht
  refine ⟨a :: mid, u, List.forall_mem_cons.2 ⟨by simp [hend], hmid⟩,
    ⟨fun hc ↦ absurd (hc.symm.trans hconnect) Bool.noConfusion, t, h, hrun⟩, hbad.imp_right ?_⟩
  rintro ⟨b, hb, hopen⟩
  exact ⟨b, List.mem_cons_of_mem a hb, hopen⟩

theorem disturbs_of_state (h : s.state ≠ .ready) : s.Disturbs :=
  ⟨[], s, List.forall_mem_nil _, rfl, .inl h⟩

/-- A socket that is opened disturbs the session. -/
theorem disturbs_of_open (h : s.step a = some t) (hopen : a.isOpen) (hend : a.isEnd = false)
    (hconnect : a.isConnect = false) : s.Disturbs :=
  ⟨[a], t, List.forall_mem_singleton.2 (by simp [hend]),
    ⟨fun hc ↦ absurd (hc.symm.trans hconnect) Bool.noConfusion, t, h, rfl⟩,
    .inr ⟨a, List.mem_singleton_self a, hopen⟩⟩

theorem disturbs_of_storing (h : s.reconnectThread = .storing) : s.Disturbs :=
  (disturbs_of_state (by simp)).of_step (a := .reconnectStore) (whenever_eq_some.2 ⟨h, rfl⟩)
    rfl rfl

theorem disturbs_of_unlocking (h : s.reconnectThread = .unlocking) : s.Disturbs :=
  (disturbs_of_storing rfl).of_step (a := .reconnectUnlock) (whenever_eq_some.2 ⟨h, rfl⟩) rfl rfl

theorem disturbs_of_backingOff (h : s.reconnectThread.isBackingOff)
    (hflags : ¬ (s.stopping ∨ s.closing)) : s.Disturbs :=
  (disturbs_of_unlocking rfl).of_step (a := .reconnectTimeout)
    (whenever_eq_some.2 ⟨⟨h, hflags⟩, rfl⟩) rfl rfl

/-- A request that waits for the reconnect thread disturbs it. -/
theorem disturbs_of_pending (h : s.reconnectThread = .waiting) (hpending : s.reconnectPending)
    (hflags : ¬ (s.stopping ∨ s.closing)) : s.Disturbs := by
  obtain ⟨hstopping, hclosing⟩ := not_or.1 hflags
  have hwake : s.wakeSection =
      { s with
        reconnectPending := false
        reconnectAttempt := s.reconnectAttempt + 1
        reconnectThread := .backingOff (s.reconnect.backoff s.reconnectAttempt) } := by
    rw [wakeSection, if_neg hstopping, if_neg hclosing]
  refine Disturbs.of_step (a := .reconnectWake) ?_
    (whenever_eq_some.2 ⟨⟨h, .inr hpending⟩, hwake⟩) rfl rfl
  exact disturbs_of_backingOff rfl hflags

theorem callerAt_setCaller {pc' : CallerPc} (h : s.CallerAt i pc) :
    (s.setCaller i pc').CallerAt i pc' :=
  List.getElem?_set_self (List.getElem?_eq_some_iff.1 h).1

theorem disturbs_of_connectStore (h : s.CallerAt i .connectStore) : s.Disturbs :=
  (disturbs_of_state (by simp)).of_step (a := .connectStore i) (whenever_eq_some.2 ⟨h, rfl⟩)
    rfl rfl

/-- A `connect` in front of its locked section disturbs it. -/
theorem disturbs_of_connectLock (h : s.CallerAt i .connectLock) (hstopping : ¬ s.stopping)
    (hmutex : s.MutexFree) : s.Disturbs := by
  have hcaller : (s.connectSection i).CallerAt i .connectStore := by
    rw [connectSection, if_neg hstopping]
    exact callerAt_setCaller h
  exact (disturbs_of_connectStore hcaller).of_step (a := .connectLock i)
    (whenever_eq_some.2 ⟨⟨h, hmutex⟩, rfl⟩) rfl rfl

/-- A second socket comes up as soon as the service thread has finished `mark_ready`. -/
theorem disturbs_of_opens (hservice : s.service = .resetAttempt) (hmutex : s.MutexFree)
    (hopens : 0 < s.opens) : s.Disturbs := by
  refine Disturbs.of_step (a := .resetAttempt) ?_
    (whenever_eq_some.2 ⟨⟨hservice, hmutex⟩, rfl⟩) rfl rfl
  refine Disturbs.of_step (a := .onReadyReturn) ?_ (whenever_eq_some.2 ⟨rfl, rfl⟩) rfl rfl
  exact (disturbs_of_state (by simp)).of_step (a := .socketConnected)
    (whenever_eq_some.2 ⟨⟨rfl, hopens⟩, rfl⟩) rfl rfl

/-- **A session that became ready over something still on its way can be disturbed.** -/
theorem disturbs_of_not_quiet (hservice : s.service = .resetAttempt) (h : ¬ s.Quiet) :
    s.Disturbs := by
  by_cases hthread : s.QuietThread
  case neg =>
    unfold QuietThread at hthread
    split at hthread
    case h_3 hpc =>
      obtain ⟨hpending, hflags⟩ := Classical.not_imp.1 hthread
      exact disturbs_of_pending hpc hpending hflags
    case h_4 ms hpc => exact disturbs_of_backingOff (by rw [hpc]; rfl) hthread
    case h_5 hpc => exact disturbs_of_unlocking hpc
    case h_6 hpc => exact disturbs_of_storing hpc
    case h_7 hpc =>
      exact disturbs_of_open (a := .reconnectOpen) (whenever_eq_some.2 ⟨hpc, rfl⟩) rfl rfl rfl
    all_goals exact absurd trivial hthread
  case pos =>
    have hmutex : s.MutexFree := fun hpc ↦ by
      rw [QuietThread, hpc] at hthread
      exact hthread
    by_cases hopens : s.opens = 0
    case neg => exact disturbs_of_opens hservice hmutex (Nat.pos_of_ne_zero hopens)
    case pos =>
      have hcallers : ¬ ∀ pc ∈ s.callers, pc.Quiet s.stopping := fun hc ↦ h ⟨hc, hthread, hopens⟩
      obtain ⟨pc, hpc⟩ := Classical.not_forall.1 hcallers
      obtain ⟨hmem, hpc⟩ := Classical.not_imp.1 hpc
      obtain ⟨i, hi⟩ := List.mem_iff_getElem?.1 hmem
      cases pc
      case connectLock => exact disturbs_of_connectLock hi hpc hmutex
      case connectStore => exact disturbs_of_connectStore hi
      case connectOpen =>
        exact disturbs_of_open (a := .connectOpen i) (whenever_eq_some.2 ⟨hi, rfl⟩) rfl rfl rfl
      all_goals exact absurd trivial hpc

/-! ### Live sessions

The two directions together, and a run for each side. A user whose first `connect` succeeds is left alone.
One who calls `connect` while a back-off is running gets a second opening of the same socket when it
expires. -/

/-- **When a live session is left alone.** Take any run in which the user calls `connect` only while
the stream is not ready, and stop where `mark_ready` is about to store `ready`. In every continuation
up to the next socket-disconnected callback, `disconnect` or `shutdown` the state stays `ready` and no
socket is opened, if and only if nothing is on its way to the socket in that state. -/
theorem undisturbed_iff_quiet {callers : ℕ} {policy : ReconnectPolicy} {pre : List Action}
    (hpre : machine.RunsUnder ConnectsWhileDown (start callers policy) pre s)
    (hready : s.step .storeReady = some t) :
    (∀ mid u, (∀ a ∈ mid, ¬ a.isEnd) →
      machine.RunsUnder ConnectsWhileDown (start callers policy) (pre ++ .storeReady :: mid) u →
      u.state = .ready ∧ ∀ a ∈ mid, ¬ a.isOpen) ↔ s.Quiet := by
  have hrest : ∀ mid u, machine.RunsUnder ConnectsWhileDown t mid u ↔
      machine.RunsUnder ConnectsWhileDown (start callers policy) (pre ++ .storeReady :: mid) u := by
    intro mid u
    have hstep : machine.RunsUnder ConnectsWhileDown s [.storeReady] t :=
      ⟨fun hc ↦ absurd hc Bool.false_ne_true, t, hready, rfl⟩
    rw [hpre.append_iff]
    exact hstep.append_iff.symm
  obtain ⟨-, rfl⟩ := whenever_eq_some.1 hready
  constructor
  · intro hall
    by_contra hquiet
    -- The two stores of `mark_ready` change nothing that `Quiet` looks at.
    obtain ⟨mid, u, hmid, hrun, hbad⟩ :=
      disturbs_of_not_quiet (s := { s with state := .ready, service := .resetAttempt }) rfl
        fun hq ↦ hquiet ⟨hq.callers, hq.thread, hq.opens⟩
    obtain ⟨hstate, hopens⟩ := hall mid u hmid ((hrest mid u).1 hrun)
    rcases hbad with hbad | ⟨a, ha, hopen⟩
    · exact hbad hstate
    · exact hopens a ha hopen
  · intro hquiet mid u hmid hrun
    have hlive : Undisturbed { s with state := .ready, service := .resetAttempt } :=
      ⟨rfl, ⟨hquiet.callers, hquiet.thread, hquiet.opens⟩, by simp⟩
    exact hlive.run hmid ((hrest mid u).2 hrun)

/-- A first `connect` of caller `0`, up to the acknowledgement of its credentials. -/
def firstConnect : List Action :=
  [.callConnect 0, .connectLock 0, .connectStore 0, .connectOpen 0, .socketConnected, .sendAuth]

/-- The session of a first `connect` is left alone. -/
theorem undisturbed_firstConnect :
    ∃ s, machine.RunsUnder ConnectsWhileDown (start 1 {}) firstConnect s ∧ s.Quiet ∧
      ∀ mid u, (∀ a ∈ mid, ¬ a.isEnd) →
        machine.RunsUnder ConnectsWhileDown (start 1 {}) (firstConnect ++ .storeReady :: mid) u →
        u.state = .ready ∧ ∀ a ∈ mid, ¬ a.isOpen := by
  have hpre : machine.RunsUnder ConnectsWhileDown (start 1 {}) firstConnect { start 1 {} with
      state := .authenticating
      callers := [.connectWait]
      reconnectThread := .waiting
      session := true } := runsUnder_iff_check.2 (by decide)
  exact ⟨_, hpre, by decide,
    (undisturbed_iff_quiet hpre (whenever_eq_some.2 ⟨by decide, rfl⟩)).2 (by decide)⟩

/-- The session of `firstConnect`, up to the return of `connect`. -/
def firstSession : List Action :=
  firstConnect ++ [.storeReady, .resetAttempt, .onReadyReturn, .connectReturn 0]

/-- The socket of `firstSession` drops, the reconnect thread starts its back-off, and the user, who
sees the stream down, calls `connect` again and succeeds. -/
def retryDuringBackoff : List Action :=
  firstSession ++
    [.socketDisconnected, .scheduleReconnect, .reconnectWake, .callConnect 0, .connectLock 0,
      .connectStore 0, .connectOpen 0, .socketConnected, .sendAuth]

/-- The back-off runs out over the new session: the state goes back to `connecting` and a second
socket is opened. -/
theorem disturbed_retryDuringBackoff :
    ¬ ∀ mid u, (∀ a ∈ mid, ¬ a.isEnd) →
      machine.RunsUnder ConnectsWhileDown (start 1 {}) (retryDuringBackoff ++ .storeReady :: mid) u →
      u.state = .ready ∧ ∀ a ∈ mid, ¬ a.isOpen := by
  intro h
  have hrun : machine.check ConnectsWhileDown (start 1 {})
      (retryDuringBackoff ++ .storeReady ::
        [.reconnectTimeout, .reconnectUnlock, .reconnectStore, .reconnectOpen]) =
      some { start 1 {} with
        state := .connecting
        callers := [.connectWait]
        reconnectThread := .waiting
        service := .resetAttempt
        session := true
        opens := 1 } := by decide
  obtain ⟨hstate, -⟩ := h _ _ (by decide) (runsUnder_iff_check.2 hrun)
  exact absurd hstate (by decide)

/-! ### `disconnect`

`disconnect` raises a flag and drops the request, both under the mutex, and the reconnect thread looks at
them under it. The gap is behind that look, where the mutex has been given back and the socket is not
opened yet (`Reopening`). -/

/-- The reconnect thread has given the mutex back and has not called `ws.open()` yet. -/
def Reopening (s : StreamBase) : Prop :=
  s.reconnectThread = .storing ∨ s.reconnectThread = .opening

instance (s : StreamBase) : Decidable (Reopening s) := inferInstanceAs (Decidable (_ ∨ _))

/-- What the locked section of `disconnect` establishes for as long as nobody calls `connect`. -/
structure Cancelled (s : StreamBase) : Prop where
  callers : s.QuietCallers
  closing : s.closing = true
  pending : s.reconnectPending = false
  mutex : s.MutexFree

theorem Cancelled.of_disconnectLock (hcallers : s.QuietCallers)
    (h : s.step (.disconnectLock i) = some t) : t.Cancelled := by
  obtain ⟨⟨-, hmutex⟩, rfl⟩ := whenever_eq_some.1 h
  exact ⟨hcallers.setCaller trivial, rfl, rfl, hmutex⟩

/-- Shutting down keeps the user threads quiet. -/
theorem QuietCallers.shutdownSection (hs : s.QuietCallers) : (s.shutdownSection i).QuietCallers := by
  unfold StreamBase.shutdownSection
  split
  case isTrue => exact hs.setCaller trivial
  case isFalse =>
    intro pc hpc
    -- A stream that is stopping asks less of its callers.
    rcases List.mem_or_eq_of_mem_set hpc with hmem | rfl
    · have hquiet := hs pc hmem
      cases pc <;> trivial
    · trivial

/-- Shutting down keeps a reconnect cancelled. -/
theorem Cancelled.shutdownSection (hs : s.Cancelled) : (s.shutdownSection i).Cancelled := by
  have hcallers := hs.callers.shutdownSection (i := i)
  unfold StreamBase.shutdownSection at hcallers ⊢
  split at hcallers
  · rw [if_pos ‹_›]
    exact ⟨hcallers, hs.closing, hs.pending, hs.mutex⟩
  · rw [if_neg ‹_›]
    exact ⟨hcallers, rfl, hs.pending, hs.mutex⟩

/-- **Step lemma.** Until `connect` is called, a cancelled reconnect stays cancelled. -/
theorem Cancelled.step (hs : s.Cancelled) (hconnect : ¬ a.isConnect) (h : s.step a = some t) :
    t.Cancelled := by
  obtain ⟨hcallers, hclosing, hpending, hmutex⟩ := id hs
  cases a <;> rw [StreamBase.step, whenever_eq_some] at h <;> obtain ⟨hg, rfl⟩ := h
  case callConnect i => exact absurd rfl hconnect
  case connectLock i =>
    rw [hcallers.connectSection hg.1]
    exact ⟨hcallers.setCaller trivial, hclosing, hpending, hmutex⟩
  case connectStore i => exact (hcallers.callerAt hg).elim
  case connectOpen i => exact (hcallers.callerAt hg).elim
  case connectReturn i | disconnectClose i | disconnectReturn i | shutdownJoin i | shutdownClose i |
      shutdownReturn i => exact ⟨hcallers.setCaller trivial, hclosing, hpending, hmutex⟩
  case disconnectLock i => exact ⟨hcallers.setCaller trivial, rfl, rfl, hmutex⟩
  case shutdownLock i => exact hs.shutdownSection
  case reconnectWake =>
    -- No request is pending, so what wakes the thread is the end of the stream.
    have hstopping : s.stopping = true := by simpa [hpending] using hg.2
    rw [wakeSection, if_pos hstopping]
    exact ⟨hcallers, hclosing, hpending, by simp [MutexFree]⟩
  case reconnectInterrupt =>
    unfold interruptSection
    split <;> exact ⟨hcallers, hclosing, hpending, by simp [MutexFree]⟩
  case reconnectTimeout => exact absurd (.inr hclosing) hg.2
  case reconnectUnlock => exact absurd hg hmutex
  case reconnectStore | reconnectOpen => exact ⟨hcallers, hclosing, hpending, by simp [MutexFree]⟩
  case scheduleReconnect =>
    rw [scheduleReconnect, if_pos (.inr (.inl hclosing))]
    exact ⟨hcallers, hclosing, hpending, hmutex⟩
  all_goals exact ⟨hcallers, hclosing, hpending, hmutex⟩

/-- The gap in front of `ws.open()` is entered with the unlock only. -/
theorem reopening_of_step (h : s.step a = some t) (ht : t.Reopening) :
    s.Reopening ∨ s.reconnectThread = .unlocking := by
  cases a <;> rw [StreamBase.step, whenever_eq_some] at h <;> obtain ⟨hg, rfl⟩ := h
  case reconnectUnlock => exact .inr hg
  case reconnectStore => exact .inl (.inl hg)
  case reconnectOpen => exact .inl (.inr hg)
  case connectLock i =>
    unfold connectSection at ht
    split at ht
    · exact .inl ht
    · by_cases hpc : s.reconnectThread = .notStarted
      · simp [Reopening, hpc] at ht
      · rw [Reopening, if_neg hpc] at ht
        exact .inl ht
  case shutdownLock i =>
    unfold shutdownSection at ht
    split at ht <;> exact .inl ht
  case reconnectWake =>
    unfold wakeSection at ht
    split at ht
    · simp [Reopening] at ht
    · by_cases hclosing : s.closing = true <;> simp [Reopening, hclosing] at ht
  case reconnectInterrupt =>
    by_cases hstopping : s.stopping = true <;>
      simp [Reopening, interruptSection, hstopping] at ht
  case reconnectTimeout => simp [Reopening] at ht
  case scheduleReconnect =>
    unfold scheduleReconnect at ht
    split at ht
    · exact .inl ht
    · split at ht <;> exact .inl ht
  all_goals exact .inl ht

/-- Outside the gap a cancelled reconnect thread does not reach the socket. -/
theorem Cancelled.not_opening (hs : s.Cancelled) (hr : ¬ s.Reopening) (h : s.step a = some t) :
    a ≠ .reconnectOpen ∧ a.stores ≠ some .connecting := by
  cases a
  case connectStore i => exact (hs.callers.callerAt (whenever_eq_some.1 h).1).elim
  case reconnectStore => exact absurd (.inl (whenever_eq_some.1 h).1) hr
  case reconnectOpen => exact absurd (.inr (whenever_eq_some.1 h).1) hr
  all_goals simp [Action.stores]

/-- A reconnect that is cancelled and not in the gap, on a stream that is not connecting. -/
structure Final (s : StreamBase) : Prop where
  cancelled : s.Cancelled
  reopening : ¬ s.Reopening
  state : s.state ≠ .connecting

/-- **Step lemma.** -/
theorem Final.step (hs : s.Final) (hconnect : ¬ a.isConnect) (h : s.step a = some t) :
    t.Final where
  cancelled := hs.cancelled.step hconnect h
  reopening ht := (reopening_of_step h ht).elim hs.reopening hs.cancelled.mutex
  state := by
    have hstores := (hs.cancelled.not_opening hs.reopening h).2
    rw [state_of_step h]
    cases hv : a.stores with
    | none => exact hs.state
    | some v => exact fun heq ↦ hstores (hv.trans (congrArg some heq))

/-- **Run lemma.** Nothing is opened and nobody stores `connecting` until the next `connect`. -/
theorem Final.run (hs : s.Final) {mid : List Action} (hconnect : ∀ a ∈ mid, ¬ a.isConnect)
    (h : machine.run s mid = some u) :
    u.state ≠ .connecting ∧ ∀ a ∈ mid, a ≠ .reconnectOpen ∧ a.stores ≠ some .connecting := by
  have hrun := (runsUnder_true_iff.2 h).and_forall hconnect
  have hstep : ∀ s a t, Final s → True ∧ ¬ a.isConnect → machine.step s a = some t →
      (a ≠ .reconnectOpen ∧ a.stores ≠ some .connecting) ∧ t.Final :=
    fun s a t hs hC h ↦ ⟨hs.cancelled.not_opening hs.reopening h, hs.step hC.2 h⟩
  exact ⟨(hrun.invariant (fun s a t hs hC h ↦ (hstep s a t hs hC h).2) hs).state,
    hrun.forall_mem hstep hs⟩

/-- **When a `disconnect` is final.** Take any run in which a `disconnect` starts while no `connect` is
on its way to the socket, and no other `connect` is called. When it returns, the reconnect thread
opens no socket and nobody stores `connecting` until the next `connect`, in every continuation, if and
only if the thread is not between giving the mutex back and its `ws.open()`. -/
theorem final_iff_not_reopening {callers : ℕ} {policy : ReconnectPolicy} {pre during : List Action}
    {s₀ : StreamBase} (hpre : machine.run (start callers policy) pre = some s₀)
    (hcallers : s₀.QuietCallers) (hduring : ∀ a ∈ during, ¬ a.isConnect)
    (hrun : machine.run s₀ (.disconnectLock i :: during) = some s)
    (hreturn : s.step (.disconnectReturn i) = some t) :
    (∀ mid u, (∀ a ∈ mid, ¬ a.isConnect) →
      machine.run (start callers policy)
        (pre ++ (.disconnectLock i :: during ++ .disconnectReturn i :: mid)) = some u →
      u.state ≠ .connecting ∧ ∀ a ∈ mid, a ≠ .reconnectOpen ∧ a.stores ≠ some .connecting) ↔
    ¬ s.Reopening := by
  have hrest : ∀ mid, machine.run (start callers policy)
      (pre ++ (.disconnectLock i :: during ++ .disconnectReturn i :: mid)) = machine.run t mid := by
    intro mid
    rw [run_append, hpre, Option.bind_some, run_append, hrun, Option.bind_some, run_cons]
    show (s.step (.disconnectReturn i)).bind _ = _
    rw [hreturn, Option.bind_some]
  have hthread : t.reconnectThread = s.reconnectThread := by
    obtain ⟨-, rfl⟩ := whenever_eq_some.1 hreturn
    rfl
  have hstate : t.state = .disconnected := state_of_step hreturn
  rw [Reopening, ← hthread, ← Reopening]
  constructor
  · intro hall hreopening
    have hnext : ∀ a u, ¬ a.isConnect → t.step a = some u →
        a ≠ .reconnectOpen ∧ a.stores ≠ some .connecting := by
      intro a u hconnect h
      have hrun : machine.run t [a] = some u := (run_singleton machine t a).trans h
      rw [← hrest] at hrun
      exact (hall [a] u (List.forall_mem_singleton.2 hconnect) hrun).2 a (List.mem_singleton_self a)
    rcases hreopening with hstoring | hopening
    · exact (hnext .reconnectStore _ Bool.false_ne_true
        (whenever_eq_some.2 ⟨hstoring, rfl⟩)).2 rfl
    · exact (hnext .reconnectOpen _ Bool.false_ne_true
        (whenever_eq_some.2 ⟨hopening, rfl⟩)).1 rfl
  · intro hreopening mid u hmid h
    rw [hrest] at h
    -- The locked section cancels, and everything up to the return of `disconnect` keeps it so.
    obtain ⟨s₁, hlock, hrun⟩ := Option.bind_eq_some_iff.1 hrun
    have hcancelled : s.Cancelled :=
      ((runsUnder_true_iff.2 hrun).and_forall hduring).invariant
        (fun _ _ _ hs hC h ↦ hs.step hC.2 h) (Cancelled.of_disconnectLock hcallers hlock)
    have hfinal : t.Final :=
      ⟨hcancelled.step (a := .disconnectReturn i) Bool.false_ne_true hreturn, hreopening,
        by simp [hstate]⟩
    exact hfinal.run hmid h

/-- A `disconnect` of a ready session is final. -/
theorem final_firstSession :
    ∃ s, machine.run (start 1 {}) (firstSession ++ [.disconnectLock 0, .disconnectClose 0]) =
        some s ∧ ¬ s.Reopening ∧
      ∀ mid u, (∀ a ∈ mid, ¬ a.isConnect) →
        machine.run (start 1 {})
          (firstSession ++ ([.disconnectLock 0, .disconnectClose 0] ++ .disconnectReturn 0 :: mid)) =
            some u →
        u.state ≠ .connecting ∧ ∀ a ∈ mid, a ≠ .reconnectOpen ∧ a.stores ≠ some .connecting := by
  have hpre : machine.run (start 1 {}) firstSession = some { start 1 {} with
      state := .ready
      reconnectThread := .waiting
      session := true } := by decide
  have hrun : machine.run { start 1 {} with
      state := .ready
      reconnectThread := .waiting
      session := true } (.disconnectLock 0 :: [.disconnectClose 0]) = some { start 1 {} with
      state := .ready
      callers := [.disconnectReturn]
      closing := true
      reconnectThread := .waiting
      session := true } := by decide
  have hall := run_append machine (start 1 {}) firstSession [.disconnectLock 0, .disconnectClose 0]
  rw [hpre, Option.bind_some, hrun] at hall
  exact ⟨_, hall, by decide, (final_iff_not_reopening hpre (by decide) (by decide) hrun
    (whenever_eq_some.2 ⟨by decide, rfl⟩)).2 (by decide)⟩

/-- The socket of `firstSession` drops and the back-off runs out. The reconnect thread has just given the
mutex back. -/
def backoffExpired : List Action :=
  firstSession ++
    [.socketDisconnected, .scheduleReconnect, .reconnectWake, .reconnectTimeout, .reconnectUnlock]

/-- The whole `disconnect` falls into the gap, and the reconnect goes ahead behind it. -/
theorem not_final_backoffExpired :
    ¬ ∀ mid u, (∀ a ∈ mid, ¬ a.isConnect) →
      machine.run (start 1 {})
        (backoffExpired ++ ([.disconnectLock 0, .disconnectClose 0] ++ .disconnectReturn 0 :: mid)) =
          some u →
      u.state ≠ .connecting ∧ ∀ a ∈ mid, a ≠ .reconnectOpen ∧ a.stores ≠ some .connecting := by
  intro h
  have hrun : machine.run (start 1 {})
      (backoffExpired ++ ([.disconnectLock 0, .disconnectClose 0] ++ .disconnectReturn 0 ::
        [.reconnectStore, .reconnectOpen])) =
      some { start 1 {} with
        reconnectAttempt := 1
        closing := true
        state := .connecting
        reconnectThread := .waiting
        opens := 1 } := by decide
  exact (h _ _ (by decide) hrun).1 rfl

end StreamBase

end Alpaca
