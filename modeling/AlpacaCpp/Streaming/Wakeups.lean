import AlpacaCpp.Foundation.Monitor
import AlpacaCpp.Streaming.StreamBase

/-!
# `cv_`: who sleeps, and who wakes them

The user threads in `connect` and the reconnect thread all wait on the one condition variable of a
`stream_base`, each for a condition of its own. `StreamBase.step` lets them go on when the condition
holds; here they sleep, and go on when somebody has called `notify_all`.

The conditions are made true in five places. `disconnect`, `shutdown` and `report_error` do it in a
locked section and notify behind it, `schedule_reconnect` notifies inside it. `mark_ready` is the
exception: it stores `ready` with no lock at all, between the look of a `connect` at `state_` and its
sleep if need be. What saves it is the locked section that follows, which has another purpose: it waits
for the sleeper to sleep before the notification goes out (`StreamBase.notifies`).

So **a thread never sleeps on while its condition holds**: `awake_within` gives the few steps, none of
them its own, that wake it from any reachable state.
-/

namespace Alpaca

/-- The threads around a stream. -/
inductive StreamThread
  | user (i : ℕ)
  | reconnect
  | service
  /-- The socket, and a user thread that sets the policy. -/
  | outside
  deriving DecidableEq

namespace StreamBase

open Machine

/-- The thread of a label. -/
def Action.actor : Action → StreamThread
  | .callConnect i | .connectLock i | .connectStore i | .connectOpen i | .connectReturn i
  | .disconnectLock i | .disconnectClose i | .disconnectReturn i | .shutdownLock i | .shutdownJoin i
  | .shutdownClose i | .shutdownReturn i => .user i
  | .reconnectWake | .reconnectInterrupt | .reconnectTimeout | .reconnectUnlock | .reconnectStore
  | .reconnectOpen => .reconnect
  | .socketConnected | .sendAuth | .socketDisconnected | .scheduleReconnect | .storeReady | .resetAttempt
  | .onReadyReturn | .reportError | .failAuth => .service
  | .setReconnectPolicy _ | .openFailed => .outside

/-- The labels that are locked sections. -/
def Action.isLocked : Action → Bool
  | .connectLock _ | .connectReturn _ | .disconnectLock _ | .shutdownLock _ | .setReconnectPolicy _
  | .reconnectWake | .reconnectInterrupt | .reconnectTimeout | .scheduleReconnect | .resetAttempt
  | .failAuth => true
  | _ => false

/-- Where `notify_all` is called. -/
def noticeOf (s : StreamBase) : Action → Notice
  | .disconnectLock _ | .resetAttempt | .failAuth => .behind
  -- a second `shutdown` returns at once
  | .shutdownLock _ => if s.stopping then .silent else .behind
  -- and so does a `schedule_reconnect` that leaves no request
  | .scheduleReconnect =>
    if s.stopping ∨ s.closing ∨ s.reconnect.enabled = false then .silent
    else if s.reconnect.maxAttempts ≠ 0 ∧ s.reconnect.maxAttempts ≤ s.reconnectAttempt then .silent
    else .inside
  | _ => .silent

/-- The thread stands at one of the three waits. -/
def waitsAt : StreamThread → StreamBase → Bool
  | .user i, s => decide (s.CallerAt i .connectWait)
  | .reconnect, s => decide (s.reconnectThread = .waiting) || s.reconnectThread.isBackingOff
  | _, _ => false

/-- The predicates the waits are called with. -/
def waitsFor : StreamThread → StreamBase → Bool
  | .user _, s => s.stopping || s.authFailed || decide (s.state = .ready)
  | .reconnect, s => s.stopping || if s.reconnectThread.isBackingOff then s.closing else s.reconnectPending
  | _, _ => false

/-- The stream with its condition variable. -/
def monitor : Monitor StreamBase Action StreamThread where
  machine := machine
  actor := Action.actor
  locked := Action.isLocked
  notice := noticeOf
  waits := waitsAt
  condition := waitsFor
  free s := decide s.MutexFree

variable {s t u : StreamBase} {a : Action} {i : ℕ}

@[simp] theorem waitsAt_user : waitsAt (.user i) s = true ↔ s.CallerAt i .connectWait := decide_eq_true_iff

@[simp] theorem waitsAt_reconnect : waitsAt .reconnect s = true ↔
    s.reconnectThread = .waiting ∨ s.reconnectThread.isBackingOff = true := by
  rw [waitsAt, Bool.or_eq_true, decide_eq_true_eq]

@[simp] theorem waitsFor_user : waitsFor (.user i) s = true ↔
    (s.stopping = true ∨ s.authFailed = true) ∨ s.state = .ready := by
  rw [waitsFor, Bool.or_eq_true, Bool.or_eq_true, decide_eq_true_eq]

@[simp] theorem waitsFor_reconnect : waitsFor .reconnect s = true ↔ s.stopping = true ∨
    (if s.reconnectThread.isBackingOff then s.closing else s.reconnectPending) = true := by
  rw [waitsFor, Bool.or_eq_true]

/-! ### What other threads leave alone

A thread that sleeps has its place kept by all others: only its own labels move it. So what it waits for
is a condition on the shared flags alone. -/

/-- A user thread is moved by its own labels only. -/
theorem callers_of_step (h : s.step a = some t) (hne : a.actor ≠ .user i) :
    t.callers[i]? = s.callers[i]? := by
  have hset : ∀ {j : ℕ} (pc : CallerPc), a.actor = .user j →
      (s.callers.set j pc)[i]? = s.callers[i]? := by
    intro j pc hj
    exact List.getElem?_set_ne fun heq ↦ hne (hj.trans (congrArg _ heq))
  cases a <;> rw [step, whenever_eq_some] at h <;> obtain ⟨hg, rfl⟩ := h
  case connectLock j =>
    unfold connectSection
    split <;> exact hset _ rfl
  case shutdownLock j =>
    unfold shutdownSection
    split <;> exact hset _ rfl
  case callConnect j | connectStore j | connectOpen j | connectReturn j | disconnectLock j
      | disconnectClose j | disconnectReturn j | shutdownJoin j | shutdownClose j | shutdownReturn j =>
    exact hset _ rfl
  case reconnectWake =>
    unfold wakeSection
    split <;> rfl
  case scheduleReconnect =>
    unfold StreamBase.scheduleReconnect
    split
    · rfl
    · split <;> rfl
  all_goals rfl

/-- The reconnect thread is started by `connect`, and then moved by its own labels only. -/
theorem reconnectThread_of_step (h : s.step a = some t) (hne : a.actor ≠ .reconnect)
    (hs : s.reconnectThread ≠ .notStarted) : t.reconnectThread = s.reconnectThread := by
  cases a <;> rw [step, whenever_eq_some] at h <;> obtain ⟨hg, rfl⟩ := h
  case connectLock j =>
    unfold connectSection
    rw [if_neg hs]
    split <;> rfl
  case shutdownLock j =>
    unfold shutdownSection
    split <;> rfl
  case reconnectWake | reconnectInterrupt | reconnectTimeout | reconnectUnlock | reconnectStore
      | reconnectOpen => exact absurd rfl hne
  case scheduleReconnect =>
    unfold StreamBase.scheduleReconnect
    split
    · rfl
    · split <;> rfl
  all_goals rfl

/-- A thread that waits has been started. -/
theorem started_of_waitsAt (hs : waitsAt .reconnect s = true) : s.reconnectThread ≠ .notStarted := by
  intro heq
  simp [heq, ReconnectPc.isBackingOff] at hs

/-- Nobody leaves a wait by a step of another thread. -/
theorem waitsAt_of_step (h : s.step a = some t) {i : StreamThread} (hne : a.actor ≠ i)
    (hs : waitsAt i s = true) : waitsAt i t = true := by
  rcases i with i | - | - | -
  · rw [waitsAt_user, CallerAt] at hs ⊢
    rw [callers_of_step h hne, hs]
  · have hthread := reconnectThread_of_step h hne (started_of_waitsAt hs)
    rw [waitsAt_reconnect] at hs ⊢
    rwa [hthread]
  · exact hs
  · exact hs

/-! ### What makes a condition true

The conditions are made of five flags. A label that raises one of them notifies, in its section or behind
it, except for the store of `ready`. -/

/-- The flags the conditions are made of. -/
structure Raises (s t : StreamBase) : Prop where
  stopping : t.stopping = true → s.stopping = true
  closing : t.closing = true → s.closing = true
  authFailed : t.authFailed = true → s.authFailed = true
  reconnectPending : t.reconnectPending = true → s.reconnectPending = true
  ready : t.state = .ready → s.state = .ready

/-- **Whoever raises a flag** notifies behind or inside the locked section it does so in, or is
`mark_ready` on its way to one. -/
theorem raises_of_step (h : s.step a = some t) :
    monitor.Announces s a ∨ t.service = .resetAttempt ∨ Raises s t := by
  have hquiet : ∀ {u : StreamBase}, u.stopping = s.stopping → u.closing = s.closing →
      u.authFailed = s.authFailed → u.reconnectPending = s.reconnectPending →
      (u.state = .ready → s.state = .ready) → Raises s u := fun h₁ h₂ h₃ h₄ h₅ ↦
    ⟨fun h ↦ h₁ ▸ h, fun h ↦ h₂ ▸ h, fun h ↦ h₃ ▸ h, fun h ↦ h₄ ▸ h, h₅⟩
  have hready := ready_of_step h
  cases a <;> rw [step, whenever_eq_some] at h <;> obtain ⟨hg, rfl⟩ := h
  case disconnectLock i | resetAttempt | failAuth => exact .inl ⟨rfl, by simp [monitor, noticeOf]⟩
  case shutdownLock i =>
    rcases hstop : s.stopping with - | -
    · exact .inl ⟨rfl, by simp [monitor, noticeOf, hstop]⟩
    · rw [shutdownSection, if_pos hstop]
      exact .inr (.inr (hquiet rfl rfl rfl rfl id))
  case scheduleReconnect =>
    by_cases hstop : s.stopping ∨ s.closing ∨ s.reconnect.enabled = false
    · rw [StreamBase.scheduleReconnect, if_pos hstop]
      exact .inr (.inr (hquiet rfl rfl rfl rfl id))
    · by_cases hmax : s.reconnect.maxAttempts ≠ 0 ∧ s.reconnect.maxAttempts ≤ s.reconnectAttempt
      · rw [StreamBase.scheduleReconnect, if_neg hstop, if_pos hmax]
        exact .inr (.inr (hquiet rfl rfl rfl rfl id))
      · exact .inl ⟨rfl, by simp [monitor, noticeOf, hstop, hmax]⟩
  -- `mark_ready` stores with no lock, and its locked section is still to come
  case storeReady => exact .inr (.inl rfl)
  case connectLock i =>
    unfold connectSection
    split
    · exact .inr (.inr (hquiet rfl rfl rfl rfl id))
    · exact .inr (.inr ⟨id, fun h ↦ absurd h (by simp), fun h ↦ absurd h (by simp), id, id⟩)
  case reconnectWake =>
    unfold wakeSection
    split
    · exact .inr (.inr (hquiet rfl rfl rfl rfl id))
    · exact .inr (.inr ⟨id, id, id, fun h ↦ absurd h (by simp), id⟩)
  all_goals exact .inr (.inr (hquiet rfl rfl rfl rfl fun h ↦ (hready h).resolve_left (by simp)))

/-- A condition that becomes true, of a thread that stays where it is. -/
theorem Raises.waitsFor_of (h : Raises s t) {i : StreamThread}
    (hthread : i = .reconnect → t.reconnectThread = s.reconnectThread) (ht : waitsFor i t = true) :
    waitsFor i s = true := by
  rcases i with i | - | - | -
  · rw [waitsFor_user] at ht ⊢
    exact ht.imp (Or.imp h.stopping h.authFailed) h.ready
  · rw [waitsFor_reconnect] at ht ⊢
    rw [hthread rfl] at ht
    refine ht.imp h.stopping fun hflag ↦ ?_
    split at hflag
    case isTrue hoff =>
      rw [if_pos hoff]
      exact h.closing hflag
    case isFalse hoff =>
      rw [if_neg hoff]
      exact h.reconnectPending hflag
  · exact ht
  · exact ht

/-- A `mark_ready` between its store and its section. -/
abbrev Due (s : StreamBase) : Prop := s.service = .resetAttempt

/-- **The stream keeps the discipline**: `mark_ready` has its section due between its store and its
lock. -/
theorem notifies : monitor.Notifies Due where
  waits_of_step h hne hs := waitsAt_of_step h hne hs
  announced {s t a i} h hne hwaits hs ht := by
    rcases raises_of_step h with hannounce | hdue | hraises
    · exact .inl hannounce
    · exact .inr hdue
    · have hthread : i = .reconnect → t.reconnectThread = s.reconnectThread := by
        rintro rfl
        exact reconnectThread_of_step h hne (started_of_waitsAt hwaits)
      have htrue := hraises.waitsFor_of hthread ht
      exact absurd (hs.symm.trans htrue) (by decide)
  due_of_step {s t a} h hs := by
    by_cases ht : t.service = .resetAttempt
    · exact .inr ht
    · obtain rfl := leaves_resetAttempt h hs ht
      exact .inl ⟨rfl, by simp [monitor, noticeOf]⟩

/-! ### Nobody is left asleep

The steps that wake a thread are those of whoever still owes a notification: finishing a section, giving
the mutex back, and the `notify_all` itself. -/

variable {m : Monitored StreamBase StreamThread}

/-- A thread that stands at no wait is awake. -/
theorem awake_of_not_waitsAt (hm : monitor.Wakeful Due m) {i : StreamThread}
    (hi : waitsAt i m.state = false) : i ∉ m.asleep ∧ i ∉ m.dozing :=
  ⟨fun h ↦ absurd ((hm.asleep i h).1.symm.trans hi) (by decide),
    fun h ↦ absurd ((hm.dozing i h).1.symm.trans hi) (by decide)⟩

/-- One step with which nobody keeps the mutex. -/
theorem exists_notDozing (m : Monitored StreamBase StreamThread) :
    ∃ bs n, bs.length ≤ 1 ∧ (∀ i, MonitorAction.wake i ∉ bs) ∧ monitor.sleeping.run m bs = some n ∧
      n.state = m.state ∧ n.owing = m.owing ∧ n.dozing = none := by
  rcases hd : m.dozing with - | j
  · exact ⟨[], m, by simp, by simp, rfl, rfl, rfl, hd⟩
  · refine ⟨[.sleep j], { m with dozing := none, asleep := j :: m.asleep }, by simp, by simp, ?_, rfl, rfl, rfl⟩
    rw [run_singleton]
    exact whenever_eq_some.2 ⟨hd, rfl⟩

/-- One step with which the reconnect thread does not have it either. -/
theorem exists_mutexFree (hm : monitor.Wakeful Due m) (hdozing : m.dozing = none) (howing : m.owing = [])
    (hdue : Due m.state) :
    ∃ bs n, bs.length ≤ 1 ∧ (∀ i, MonitorAction.wake i ∉ bs) ∧ monitor.sleeping.run m bs = some n ∧
      n.state.MutexFree ∧ n.owing = [] ∧ n.dozing = none ∧ Due n.state := by
  by_cases hfree : m.state.MutexFree
  · exact ⟨[], m, by simp, by simp, rfl, hfree, howing, hdozing, hdue⟩
  · have hthread : m.state.reconnectThread = .unlocking := not_not.1 hfree
    have hawake := awake_of_not_waitsAt hm (i := .reconnect) (by simp [waitsAt, hthread, ReconnectPc.isBackingOff])
    refine ⟨[.act .reconnectUnlock], { m with state := { m.state with reconnectThread := .storing } },
      by simp, by simp, ?_, by simp [MutexFree], howing, hdozing, hdue⟩
    rw [run_singleton]
    refine Monitor.step_act.2 ⟨⟨hawake.1, hawake.2, ?_, fun _ ↦ hdozing⟩, _, ?_, rfl⟩
    · rw [howing]
      exact List.not_mem_nil
    · exact whenever_eq_some.2 ⟨hthread, rfl⟩

/-- Two steps with which the section that is due has run and has been announced. -/
theorem exists_announced (hm : monitor.Wakeful Due m) (hdozing : m.dozing = none) (howing : m.owing = [])
    (hdue : Due m.state) (hfree : m.state.MutexFree) :
    ∃ bs n, bs.length ≤ 2 ∧ (∀ i, MonitorAction.wake i ∉ bs) ∧ monitor.sleeping.run m bs = some n ∧
      n.asleep = [] := by
  have hawake := awake_of_not_waitsAt hm (i := .service) rfl
  have hreset : monitor.sleeping.step m (.act .resetAttempt) = some
      { m with state := { m.state with reconnectAttempt := 0, service := .onReady }, owing := [.service] } := by
    refine Monitor.step_act.2 ⟨⟨hawake.1, hawake.2, ?_, fun _ ↦ hdozing⟩,
      { m.state with reconnectAttempt := 0, service := .onReady }, ?_, ?_⟩
    · rw [howing]
      exact List.not_mem_nil
    · exact whenever_eq_some.2 ⟨⟨hdue, hfree⟩, rfl⟩
    · show { m with state := _, owing := _ :: m.owing } = _
      rw [howing]
      rfl
  obtain ⟨n, hn, hasleep⟩ := Monitor.exists_notified (M := monitor) (s :=
    { m with state := { m.state with reconnectAttempt := 0, service := .onReady }, owing := [.service] })
    (List.mem_singleton_self _)
  refine ⟨[.act .resetAttempt, .notify .service], n, by simp, by simp, ?_, hasleep⟩
  rw [run_cons, hreset, Option.bind_some, hn]

/-- **No lost wake-up.** In every reachable state, a thread that sleeps on `cv_` although what it waits
for has happened is about to be woken: at most four steps of other threads, of which none is a timeout or
a spurious wake-up, wake everybody. When no `notify_all` is outstanding, whoever sleeps waits for something
that has not happened. -/
theorem awake_within {callers : ℕ} {policy : ReconnectPolicy}
    {as : List (MonitorAction Action StreamThread)}
    (hrun : monitor.sleeping.run (Monitor.awake (start callers policy)) as = some m) {i : StreamThread}
    (hi : i ∈ m.asleep) :
    (waitsFor i m.state = true → ∃ bs n, bs.length ≤ 4 ∧ (∀ j, MonitorAction.wake j ∉ bs) ∧
      monitor.sleeping.run m bs = some n ∧ n.asleep = []) ∧
    (m.owing = [] → m.state.service ≠ .resetAttempt → waitsFor i m.state = false) := by
  have hm : monitor.Wakeful Due m := notifies.wakeful_of_run hrun
  refine ⟨fun hcond ↦ ?_, fun howing hdue ↦ hm.condition_eq_false howing hdue hi⟩
  -- no notification is outstanding, so it is `mark_ready` that is about to bring one
  rcases howing : m.owing with - | ⟨j, rest⟩
  · have hdue : Due m.state := ((hm.asleep i hi).2 hcond).resolve_left (absurd howing)
    obtain ⟨bs₁, m₁, hlen₁, hwake₁, hrun₁, hstate₁, howing₁, hdozing₁⟩ := exists_notDozing m
    have hm₁ : monitor.Wakeful Due m₁ := (runsUnder_true_iff.2 hrun₁).invariant
      (fun _ _ _ hs _ hstep ↦ notifies.wakeful_of_step hs hstep) hm
    obtain ⟨bs₂, m₂, hlen₂, hwake₂, hrun₂, hfree₂, howing₂, hdozing₂, hdue₂⟩ :=
      exists_mutexFree hm₁ hdozing₁ (howing₁.trans howing) (hstate₁ ▸ hdue)
    have hm₂ : monitor.Wakeful Due m₂ := (runsUnder_true_iff.2 hrun₂).invariant
      (fun _ _ _ hs _ hstep ↦ notifies.wakeful_of_step hs hstep) hm₁
    obtain ⟨bs₃, m₃, hlen₃, hwake₃, hrun₃, hasleep₃⟩ := exists_announced hm₂ hdozing₂ howing₂ hdue₂ hfree₂
    refine ⟨bs₁ ++ bs₂ ++ bs₃, m₃, ?_, ?_, ?_, hasleep₃⟩
    · rw [List.length_append, List.length_append]
      omega
    · intro j hj
      rcases List.mem_append.1 hj with hj | hj
      · exact (List.mem_append.1 hj).elim (hwake₁ j) (hwake₂ j)
      · exact hwake₃ j hj
    · rw [run_append, run_append, hrun₁, Option.bind_some, hrun₂, Option.bind_some, hrun₃]
  · obtain ⟨n, hn, hasleep⟩ := Monitor.exists_notified (M := monitor) (s := m) (howing ▸ List.mem_cons_self)
    exact ⟨[.notify j], n, by simp, by simp, hn, hasleep⟩

/-- `mark_ready` stores `ready` after a `connect` has looked at `state_` and before it sleeps. -/
def readyWhileDozing : List (MonitorAction Action StreamThread) := [
  .act (.callConnect 0), .act (.connectLock 0), .act (.connectStore 0), .act (.connectOpen 0),
  .act .socketConnected, .act .sendAuth, .look (.user 0), .act .storeReady, .sleep (.user 0)]

/-- `ready` is stored between the look of a `connect` and its sleep. -/
theorem awake_within_readyWhileDozing :
    ∃ m, monitor.sleeping.run (Monitor.awake (start 1 {})) readyWhileDozing = some m ∧
      .user 0 ∈ m.asleep ∧ waitsFor (.user 0) m.state = true ∧
      ((waitsFor (.user 0) m.state = true → ∃ bs n, bs.length ≤ 4 ∧ (∀ j, MonitorAction.wake j ∉ bs) ∧
          monitor.sleeping.run m bs = some n ∧ n.asleep = []) ∧
        (m.owing = [] → m.state.service ≠ .resetAttempt → waitsFor (.user 0) m.state = false)) := by
  obtain ⟨m, hm⟩ := Option.isSome_iff_exists.1 (show (monitor.sleeping.run
    (Monitor.awake (start 1 {})) readyWhileDozing).isSome from by decide)
  have hasleep : (monitor.sleeping.run (Monitor.awake (start 1 {})) readyWhileDozing).map
      (fun n ↦ (decide (.user 0 ∈ n.asleep), waitsFor (.user 0) n.state)) = some (true, true) := by decide
  rw [hm, Option.map_some, Option.some_inj, Prod.mk.injEq, decide_eq_true_eq] at hasleep
  obtain ⟨hi, hcond⟩ := hasleep
  exact ⟨m, hm, hi, hcond, awake_within hm hi⟩

end StreamBase

end Alpaca
