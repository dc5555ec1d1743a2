import AlpacaCpp.Foundation.Machine
import AlpacaCpp.Foundation.Words

/-!
# `stream_base`: the session state, its callers and its two threads

A `stream_base` (`core/src/streaming/stream_base.cpp`) is driven from three sides: any number of user
threads calling `connect`, `disconnect`, `shutdown` and `set_reconnect_policy`; the websocket service
thread, which runs the socket callbacks one after the other; and the reconnect thread, started by the
first `connect`. They share the fields guarded by `mutex_`, the atomic `state_` and the one socket.

A run is a list of labels. One label is one locked section, one access to `state_`, or one call on
the socket, so everything the source does with the mutex released can be interleaved with everything
else. The wait of the reconnect thread ends in a locked section whose last step, giving the mutex
back, is a label of its own (`reconnectUnlock`): in between, no other section runs.

The socket belongs to the environment. It may report an error or a lost connection at any time; it
comes up only as the answer to a `ws.open()` that has not been answered (`opens` counts them), and it
delivers inbound messages only between its connected and its disconnected callback (`session`).
-/

namespace Alpaca

/-- `stream_state` -/
inductive StreamState
  | disconnected
  | connecting
  | authenticating
  | ready
  deriving DecidableEq

/-- `reconnect_policy` -/
structure ReconnectPolicy where
  enabled : Bool := true
  initialBackoffMs : UInt32 := 500
  maxBackoffMs : UInt32 := 30000
  /-- `0` means keep trying indefinitely. -/
  maxAttempts : UInt32 := 0
  deriving DecidableEq

/-- The back-off of `reconnect_loop` after so many attempts: doubled each time, capped. -/
def ReconnectPolicy.backoff (policy : ReconnectPolicy) (attempt : UInt32) : ℕ :=
  min (u64 (policy.initialBackoffMs.toNat <<< min attempt.toNat 20)) policy.maxBackoffMs.toNat

/-- Where the reconnect thread stands in `reconnect_loop`. -/
inductive ReconnectPc
  /-- `reconnect_thread_` is not joinable. -/
  | notStarted
  /-- In the first wait, for `stopping_ || reconnect_pending_`. -/
  | waiting
  /-- In the timed wait, for `stopping_ || closing_`. -/
  | backingOff (ms : ℕ)
  /-- The timed wait ran out; the mutex is still held. -/
  | unlocking
  /-- The mutex is released, `connecting` is not stored yet. -/
  | storing
  /-- `connecting` is stored, `ws.open()` is not called yet. -/
  | opening
  | exited
  deriving DecidableEq

/-- In the timed wait, whatever the back-off. -/
def ReconnectPc.isBackingOff : ReconnectPc → Bool
  | .backingOff _ => true
  | _ => false

/-- Where a user thread stands in a call on the stream. -/
inductive CallerPc
  | idle
  /-- `connect` is called. -/
  | connectLock
  | connectStore
  | connectOpen
  /-- In the timed wait at the end of `connect`. -/
  | connectWait
  | disconnectClose
  | disconnectReturn
  | shutdownJoin
  | shutdownClose
  | shutdownReturn
  deriving DecidableEq

/-- Where the service thread stands in a callback. -/
inductive ServicePc
  | idle
  /-- `handle_socket_connected`, before the authentication frame. -/
  | sendAuth
  /-- `handle_socket_disconnected`, before `schedule_reconnect`. -/
  | scheduleReconnect
  /-- `mark_ready`, before its locked section. -/
  | resetAttempt
  /-- `mark_ready`, in `on_ready`. -/
  | onReady
  /-- `report_error`, before its locked section. -/
  | failAuth
  deriving DecidableEq

/-- A `stream_base`, the threads in it and what its socket has been asked for. -/
structure StreamBase where
  /-- `reconnect_` -/
  reconnect : ReconnectPolicy
  /-- `reconnect_attempt_` -/
  reconnectAttempt : UInt32
  /-- `reconnect_pending_` -/
  reconnectPending : Bool
  /-- `auth_failed_`: only releases a waiting `connect`. -/
  authFailed : Bool
  /-- `stopping_` -/
  stopping : Bool
  /-- `closing_`: a caller asked to disconnect. -/
  closing : Bool
  /-- `state_` -/
  state : StreamState
  reconnectThread : ReconnectPc
  callers : List CallerPc
  service : ServicePc
  /-- The calls of `ws.open()` the socket has not answered. -/
  opens : ℕ
  /-- The connected callback ran and the disconnected one has not since. -/
  session : Bool
  deriving DecidableEq

namespace StreamBase

/-- A new stream with so many user threads. -/
def start (callers : ℕ) (policy : ReconnectPolicy) : StreamBase where
  reconnect := policy
  reconnectAttempt := 0
  reconnectPending := false
  authFailed := false
  stopping := false
  closing := false
  state := .disconnected
  reconnectThread := .notStarted
  callers := List.replicate callers .idle
  service := .idle
  opens := 0
  session := false

/-- No thread is inside a locked section. -/
def MutexFree (s : StreamBase) : Prop := s.reconnectThread ≠ .unlocking

instance (s : StreamBase) : Decidable s.MutexFree := inferInstanceAs (Decidable (_ ≠ _))

/-- The user thread `i` stands at `pc`. -/
def CallerAt (s : StreamBase) (i : ℕ) (pc : CallerPc) : Prop := s.callers[i]? = some pc

instance (s : StreamBase) (i : ℕ) (pc : CallerPc) : Decidable (s.CallerAt i pc) :=
  inferInstanceAs (Decidable (_ = _))

/-- The user thread `i` moves on. -/
def setCaller (s : StreamBase) (i : ℕ) (pc : CallerPc) : StreamBase :=
  { s with callers := s.callers.set i pc }

/-! ### The locked sections

Each section is a function on the state, since nobody else sees what happens between its lines. What it
decides, such as whether to go on to the socket, is where the thread stands afterwards. -/

/-- The first section of `connect`. -/
def connectSection (s : StreamBase) (i : ℕ) : StreamBase :=
  if s.stopping then s.setCaller i .idle
  else
    { s.setCaller i .connectStore with
      closing := false
      reconnectAttempt := 0
      authFailed := false
      reconnectThread :=
        if s.reconnectThread = .notStarted then .waiting else s.reconnectThread }

/-- The section of `disconnect`. -/
def disconnectSection (s : StreamBase) (i : ℕ) : StreamBase :=
  { s.setCaller i .disconnectClose with closing := true, reconnectPending := false }

/-- The section of `shutdown`. -/
def shutdownSection (s : StreamBase) (i : ℕ) : StreamBase :=
  if s.stopping then s.setCaller i .idle
  else { s.setCaller i .shutdownJoin with stopping := true, closing := true }

/-- The reconnect thread leaves its first wait. The timed wait behind it looks at its predicate once
before it releases the mutex. -/
def wakeSection (s : StreamBase) : StreamBase :=
  if s.stopping then { s with reconnectThread := .exited }
  else
    { s with
      reconnectPending := false
      reconnectAttempt := s.reconnectAttempt + 1
      reconnectThread :=
        if s.closing then .waiting
        else .backingOff (s.reconnect.backoff s.reconnectAttempt) }

/-- The timed wait of the reconnect thread sees its predicate hold. -/
def interruptSection (s : StreamBase) : StreamBase :=
  { s with reconnectThread := if s.stopping then .exited else .waiting }

/-- `schedule_reconnect` -/
def scheduleReconnect (s : StreamBase) : StreamBase :=
  if s.stopping ∨ s.closing ∨ s.reconnect.enabled = false then { s with service := .idle }
  else if s.reconnect.maxAttempts ≠ 0 ∧ s.reconnect.maxAttempts ≤ s.reconnectAttempt then
    { s with service := .idle }
  else { s with service := .idle, reconnectPending := true }

/-! ### Steps

A label carries what the environment chooses: which thread, which policy, how a wait has ended. A step is
undefined where the thread is not at the place of its label, or needs the mutex while it is held. -/

/-- The atomic steps. The user thread of a call is its index. -/
inductive Action
  | callConnect (i : ℕ)
  | connectLock (i : ℕ)
  | connectStore (i : ℕ)
  | connectOpen (i : ℕ)
  | connectReturn (i : ℕ)
  | disconnectLock (i : ℕ)
  | disconnectClose (i : ℕ)
  | disconnectReturn (i : ℕ)
  | shutdownLock (i : ℕ)
  | shutdownJoin (i : ℕ)
  | shutdownClose (i : ℕ)
  | shutdownReturn (i : ℕ)
  | setReconnectPolicy (policy : ReconnectPolicy)
  | reconnectWake
  | reconnectInterrupt
  | reconnectTimeout
  | reconnectUnlock
  | reconnectStore
  | reconnectOpen
  | openFailed
  | socketConnected
  | sendAuth
  | socketDisconnected
  | scheduleReconnect
  | storeReady
  | resetAttempt
  | onReadyReturn
  | reportError
  | failAuth
  deriving DecidableEq

/-- One step of one thread. -/
def step (s : StreamBase) : Action → Option StreamBase
  -- `connect`; its wait ends on the predicate or on the timeout, hence at any time
  | .callConnect i => whenever (s.CallerAt i .idle) (s.setCaller i .connectLock)
  | .connectLock i => whenever (s.CallerAt i .connectLock ∧ s.MutexFree) (s.connectSection i)
  | .connectStore i =>
    whenever (s.CallerAt i .connectStore)
      { s.setCaller i .connectOpen with state := .connecting }
  | .connectOpen i =>
    whenever (s.CallerAt i .connectOpen) { s.setCaller i .connectWait with opens := s.opens + 1 }
  | .connectReturn i =>
    whenever (s.CallerAt i .connectWait ∧ s.MutexFree) (s.setCaller i .idle)
  -- `disconnect`
  | .disconnectLock i => whenever (s.CallerAt i .idle ∧ s.MutexFree) (s.disconnectSection i)
  | .disconnectClose i =>
    whenever (s.CallerAt i .disconnectClose) (s.setCaller i .disconnectReturn)
  | .disconnectReturn i =>
    whenever (s.CallerAt i .disconnectReturn) { s.setCaller i .idle with state := .disconnected }
  -- `shutdown`
  | .shutdownLock i => whenever (s.CallerAt i .idle ∧ s.MutexFree) (s.shutdownSection i)
  | .shutdownJoin i =>
    whenever (s.CallerAt i .shutdownJoin ∧
        (s.reconnectThread = .notStarted ∨ s.reconnectThread = .exited))
      (s.setCaller i .shutdownClose)
  | .shutdownClose i => whenever (s.CallerAt i .shutdownClose) (s.setCaller i .shutdownReturn)
  | .shutdownReturn i =>
    whenever (s.CallerAt i .shutdownReturn) { s.setCaller i .idle with state := .disconnected }
  | .setReconnectPolicy policy => whenever s.MutexFree { s with reconnect := policy }
  -- `reconnect_loop`
  | .reconnectWake =>
    whenever (s.reconnectThread = .waiting ∧ (s.stopping ∨ s.reconnectPending)) s.wakeSection
  | .reconnectInterrupt =>
    whenever (s.reconnectThread.isBackingOff ∧ (s.stopping ∨ s.closing))
      s.interruptSection
  | .reconnectTimeout =>
    whenever (s.reconnectThread.isBackingOff ∧ ¬ (s.stopping ∨ s.closing))
      { s with reconnectThread := .unlocking }
  | .reconnectUnlock =>
    whenever (s.reconnectThread = .unlocking) { s with reconnectThread := .storing }
  | .reconnectStore =>
    whenever (s.reconnectThread = .storing)
      { s with state := .connecting, reconnectThread := .opening }
  | .reconnectOpen =>
    whenever (s.reconnectThread = .opening)
      { s with opens := s.opens + 1, reconnectThread := .waiting }
  -- the socket and its callbacks
  | .openFailed => whenever (0 < s.opens) { s with opens := s.opens - 1 }
  | .socketConnected =>
    whenever (s.service = .idle ∧ 0 < s.opens)
      { s with opens := s.opens - 1, session := true, state := .authenticating,
               service := .sendAuth }
  | .sendAuth => whenever (s.service = .sendAuth) { s with service := .idle }
  | .socketDisconnected =>
    whenever (s.service = .idle)
      { s with session := false, state := .disconnected, service := .scheduleReconnect }
  | .scheduleReconnect =>
    whenever (s.service = .scheduleReconnect ∧ s.MutexFree) s.scheduleReconnect
  -- `mark_ready`
  | .storeReady =>
    whenever (s.service = .idle ∧ s.session) { s with state := .ready, service := .resetAttempt }
  | .resetAttempt =>
    whenever (s.service = .resetAttempt ∧ s.MutexFree)
      { s with reconnectAttempt := 0, service := .onReady }
  | .onReadyReturn => whenever (s.service = .onReady) { s with service := .idle }
  -- `report_error`, past its load of `state_`
  | .reportError =>
    whenever (s.service = .idle ∧ s.session ∧ s.state ≠ .ready) { s with service := .failAuth }
  | .failAuth =>
    whenever (s.service = .failAuth ∧ s.MutexFree) { s with authFailed := true, service := .idle }

/-- The stream as a machine. -/
def machine : Machine StreamBase Action where
  step := step

/-! ### What a step changes

Three tables say which labels touch `state_`, the position of the service thread and the session.
Everything the later results need to know about the other labels is that they are not in the table. -/

/-- The value a label stores in `state_`. -/
def Action.stores : Action → Option StreamState
  | .connectStore _ | .reconnectStore => some .connecting
  | .disconnectReturn _ | .shutdownReturn _ | .socketDisconnected => some .disconnected
  | .socketConnected => some .authenticating
  | .storeReady => some .ready
  | _ => none

/-- Where a label takes the service thread from, and where to. -/
def Action.serves : Action → Option (ServicePc × ServicePc)
  | .socketConnected => some (.idle, .sendAuth)
  | .sendAuth => some (.sendAuth, .idle)
  | .socketDisconnected => some (.idle, .scheduleReconnect)
  | .scheduleReconnect => some (.scheduleReconnect, .idle)
  | .storeReady => some (.idle, .resetAttempt)
  | .resetAttempt => some (.resetAttempt, .onReady)
  | .onReadyReturn => some (.onReady, .idle)
  | .reportError => some (.idle, .failAuth)
  | .failAuth => some (.failAuth, .idle)
  | _ => none

/-- Whether a label opens or closes a session. -/
def Action.opensSession : Action → Option Bool
  | .socketConnected => some true
  | .socketDisconnected => some false
  | _ => none

variable {s t : StreamBase} {a : Action}

/-- The three components of the tables. -/
def observed (s : StreamBase) : StreamState × ServicePc × Bool := (s.state, s.service, s.session)

@[simp] theorem observed_connectSection (i : ℕ) : (s.connectSection i).observed = s.observed := by
  unfold connectSection
  split <;> rfl

@[simp] theorem observed_shutdownSection (i : ℕ) :
    (s.shutdownSection i).observed = s.observed := by
  unfold shutdownSection
  split <;> rfl

@[simp] theorem observed_wakeSection : s.wakeSection.observed = s.observed := by
  unfold wakeSection
  split <;> rfl

/-- `schedule_reconnect` ends the callback it runs in. -/
@[simp] theorem observed_scheduleReconnect :
    s.scheduleReconnect.observed = (s.state, .idle, s.session) := by
  unfold scheduleReconnect
  split
  · rfl
  · split <;> rfl

/-- **The tables are complete.** -/
theorem observed_of_step (h : s.step a = some t) :
    t.observed = (a.stores.getD s.state, (a.serves.map Prod.snd).getD s.service,
      a.opensSession.getD s.session) ∧ ∀ p ∈ a.serves, s.service = p.1 := by
  cases a <;> rw [step, whenever_eq_some] at h <;> obtain ⟨hg, rfl⟩ := h
  case connectLock i => exact ⟨observed_connectSection i, by simp [Action.serves]⟩
  case shutdownLock i => exact ⟨observed_shutdownSection i, by simp [Action.serves]⟩
  case reconnectWake => exact ⟨observed_wakeSection, by simp [Action.serves]⟩
  case scheduleReconnect => exact ⟨observed_scheduleReconnect, by simpa [Action.serves] using hg.1⟩
  -- The remaining labels write their components where the table says so.
  all_goals exact ⟨rfl, by simp_all [Action.serves]⟩

/-- **Who stores into `state_`.** -/
theorem state_of_step (h : s.step a = some t) : t.state = a.stores.getD s.state :=
  congrArg Prod.fst (observed_of_step h).1

/-- **Who moves the service thread.** -/
theorem service_of_step (h : s.step a = some t) :
    t.service = (a.serves.map Prod.snd).getD s.service :=
  congrArg (fun o ↦ o.2.1) (observed_of_step h).1

/-- **and who begins and ends a session**. -/
theorem session_of_step (h : s.step a = some t) : t.session = a.opensSession.getD s.session :=
  congrArg (fun o ↦ o.2.2) (observed_of_step h).1

/-- Only the label a callback continues with moves the service thread. -/
theorem serves_of_service_ne (h : s.step a = some t) (hne : t.service ≠ s.service) :
    ∃ p, a.serves = some p ∧ s.service = p.1 := by
  cases hp : a.serves with
  | none =>
    rw [service_of_step h, hp] at hne
    exact absurd rfl hne
  | some p => exact ⟨p, rfl, (observed_of_step h).2 p hp⟩

/-- `mark_ready` goes through its locked section. -/
theorem leaves_resetAttempt (h : s.step a = some t) (hs : s.service = .resetAttempt)
    (ht : t.service ≠ .resetAttempt) : a = .resetAttempt := by
  obtain ⟨p, hp, hfrom⟩ := serves_of_service_ne h fun heq ↦ ht (heq.trans hs)
  rw [hs] at hfrom
  cases a <;> cases hp <;> first | rfl | cases hfrom

/-- `mark_ready` ends with `on_ready`. -/
theorem leaves_onReady (h : s.step a = some t) (hs : s.service = .onReady)
    (ht : t.service ≠ .onReady) : a = .onReadyReturn := by
  obtain ⟨p, hp, hfrom⟩ := serves_of_service_ne h fun heq ↦ ht (heq.trans hs)
  rw [hs] at hfrom
  cases a <;> cases hp <;> first | rfl | cases hfrom

/-- Only `mark_ready` makes the stream ready. -/
theorem ready_of_step (h : s.step a = some t) (ht : t.state = .ready) :
    a = .storeReady ∨ s.state = .ready := by
  rw [state_of_step h] at ht
  cases a
  case storeReady => exact .inl rfl
  case connectStore | reconnectStore | disconnectReturn | shutdownReturn | socketDisconnected |
      socketConnected => simp [Action.stores] at ht
  all_goals exact .inr ht

/-- A ready stream has a session. -/
theorem session_of_ready (hs : s.state = .ready → s.session = true) (h : s.step a = some t)
    (ht : t.state = .ready) : t.session = true := by
  rcases ready_of_step h ht with rfl | hready
  · obtain ⟨⟨-, hsession⟩, rfl⟩ := whenever_eq_some.1 h
    exact hsession
  · rw [session_of_step h]
    cases a
    case socketDisconnected =>
      simp [state_of_step h, Action.stores] at ht
    case socketConnected => rfl
    all_goals exact hs hready

end StreamBase

end Alpaca
