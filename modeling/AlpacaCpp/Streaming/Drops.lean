import AlpacaCpp.Streaming.Reconnect

/-!
# No drop is forgotten

`schedule_reconnect` leaves its request in one boolean, and `reconnect_loop` clears it before the
back-off, long before the socket is opened. A drop may come at any point of that. **Between a request
and the next `ws.open()` somebody always holds it**: the boolean, or the reconnect thread on its way to
the socket (`held_of_scheduleReconnect`).

Two run lemmas carry this. `Held` survives every label but a `ws.open()`; and the boolean itself is
cleared by the reconnect thread waking up and by nothing else.
-/

namespace Alpaca

/-- `enabled`, and no limit on the attempts. -/
structure ReconnectPolicy.Unlimited (policy : ReconnectPolicy) : Prop where
  enabled : policy.enabled = true
  maxAttempts : policy.maxAttempts = 0

/-- The reconnect thread has taken a request and has not called `ws.open()` for it yet. -/
def ReconnectPc.HasTaken : ReconnectPc → Prop
  | .backingOff _ | .unlocking | .storing | .opening => True
  | .notStarted | .waiting | .exited => False

namespace StreamBase

open Machine

variable {s t u : StreamBase} {a : Action} {callers : ℕ} {policy : ReconnectPolicy}

/-- A label of a run in which reconnecting stays enabled without a limit, and nobody calls `disconnect`
or `shutdown`. -/
def Action.Uninterrupted : Action → Prop
  | .disconnectLock _ | .shutdownLock _ => False
  | .setReconnectPolicy policy => policy.Unlimited
  | _ => True

/-- What such a run keeps. -/
structure Uninterrupted (s : StreamBase) : Prop where
  policy : s.reconnect.Unlimited
  stopping : s.stopping = false
  closing : s.closing = false

theorem uninterrupted_start (hpolicy : policy.Unlimited) : (start callers policy).Uninterrupted :=
  ⟨hpolicy, rfl, rfl⟩

/-- **Step lemma.** -/
theorem Uninterrupted.step (hs : s.Uninterrupted) (ha : a.Uninterrupted) (h : s.step a = some t) :
    t.Uninterrupted := by
  obtain ⟨hpolicy, hstopping, hclosing⟩ := id hs
  cases a <;> rw [StreamBase.step, whenever_eq_some] at h <;> obtain ⟨hg, rfl⟩ := h
  case disconnectLock i | shutdownLock i => exact ha.elim
  case setReconnectPolicy policy => exact ⟨ha, hstopping, hclosing⟩
  case connectLock i =>
    rw [connectSection, if_neg (by simp [hstopping])]
    exact ⟨hpolicy, hstopping, rfl⟩
  case reconnectWake =>
    rw [wakeSection, if_neg (by simp [hstopping])]
    exact ⟨hpolicy, hstopping, hclosing⟩
  case scheduleReconnect =>
    unfold StreamBase.scheduleReconnect
    split
    · exact ⟨hpolicy, hstopping, hclosing⟩
    · split <;> exact ⟨hpolicy, hstopping, hclosing⟩
  all_goals exact ⟨hpolicy, hstopping, hclosing⟩

/-- A request is held. -/
def Held (s : StreamBase) : Prop := s.reconnectPending = true ∨ s.reconnectThread.HasTaken

/-- Nothing keeps `schedule_reconnect` from leaving its request. -/
theorem Uninterrupted.pending_scheduleReconnect (hs : s.Uninterrupted)
    (h : s.step .scheduleReconnect = some t) : t.reconnectPending = true := by
  obtain ⟨-, rfl⟩ := whenever_eq_some.1 h
  rw [StreamBase.scheduleReconnect, if_neg (by simp [hs.stopping, hs.closing, hs.policy.enabled]),
    if_neg (by simp [hs.policy.maxAttempts])]

/-- **Step lemma.** Only `ws.open()` lets go of a request. -/
theorem Held.step (hs : s.Uninterrupted) (hheld : s.Held) (hopen : ¬ a.isOpen)
    (ha : a.Uninterrupted) (h : s.step a = some t) : t.Held := by
  have hflags : ¬ (s.stopping ∨ s.closing) := by simp [hs.stopping, hs.closing]
  cases a
  case scheduleReconnect => exact .inl (hs.pending_scheduleReconnect h)
  case disconnectLock i | shutdownLock i => exact ha.elim
  case connectOpen i | reconnectOpen => exact absurd rfl hopen
  all_goals rw [StreamBase.step, whenever_eq_some] at h; obtain ⟨hg, rfl⟩ := h
  case connectLock i =>
    rw [connectSection, if_neg (by simp [hs.stopping])]
    refine hheld.imp_right fun htaken ↦ ?_
    show ReconnectPc.HasTaken (if s.reconnectThread = .notStarted then _ else _)
    rwa [if_neg fun heq ↦ by rw [heq] at htaken; exact htaken]
  case reconnectWake =>
    -- The boolean goes down as the thread starts its back-off.
    rw [wakeSection, if_neg (by simp [hs.stopping])]
    exact .inr (by simp [hs.closing, ReconnectPc.HasTaken])
  case reconnectInterrupt => exact absurd hg.2 hflags
  case reconnectTimeout | reconnectUnlock | reconnectStore => exact .inr trivial
  all_goals exact hheld

/-- **Step lemma.** Only the reconnect thread waking up clears the boolean. -/
theorem pending_of_step (hs : s.Uninterrupted) (hpending : s.reconnectPending = true)
    (hwake : a ≠ .reconnectWake) (ha : a.Uninterrupted) (h : s.step a = some t) :
    t.reconnectPending = true := by
  cases a
  case scheduleReconnect => exact hs.pending_scheduleReconnect h
  case disconnectLock i | shutdownLock i => exact ha.elim
  case reconnectWake => exact absurd rfl hwake
  all_goals rw [StreamBase.step, whenever_eq_some] at h; obtain ⟨hg, rfl⟩ := h
  case connectLock i =>
    rw [connectSection, if_neg (by simp [hs.stopping])]
    exact hpending
  all_goals exact hpending

/-- **Run lemma.** What a step of an uninterrupted run preserves, such a run preserves. -/
theorem Uninterrupted.run {P : StreamBase → Prop} {Q : Action → Prop} {as : List Action}
    (hstep : ∀ s a t, Uninterrupted s → P s → Q a → a.Uninterrupted → s.step a = some t → P t)
    (hs : s.Uninterrupted) (hP : P s) (has : ∀ a ∈ as, a.Uninterrupted) (hQ : ∀ a ∈ as, Q a)
    (h : machine.run s as = some u) : P u :=
  ((((runsUnder_true_iff.2 h).and_forall has).and_forall hQ).invariant
    (P := fun s ↦ s.Uninterrupted ∧ P s)
    (fun s a t hs hC h ↦ ⟨hs.1.step hC.1.2 h, hstep s a t hs.1 hs.2 hC.2 hC.1.2 h⟩) ⟨hs, hP⟩).2

/-- **No drop is forgotten.** Take any run without `disconnect` and `shutdown` in which reconnecting
stays enabled without a limit, and a `schedule_reconnect` in it that no `ws.open()` has followed yet.
Its request is still pending, or the reconnect thread has woken up for it and is on its way to
`ws.open()`. -/
theorem held_of_scheduleReconnect {pre post : List Action} (hpolicy : policy.Unlimited)
    (hall : ∀ a ∈ pre ++ .scheduleReconnect :: post, a.Uninterrupted)
    (hopen : ∀ a ∈ post, ¬ a.isOpen)
    (hrun : machine.run (start callers policy) (pre ++ .scheduleReconnect :: post) = some u) :
    u.reconnectPending = true ∨ .reconnectWake ∈ post ∧ u.reconnectThread.HasTaken := by
  rw [run_append, Option.bind_eq_some_iff] at hrun
  obtain ⟨s, hpre, hrun⟩ := hrun
  obtain ⟨t, hsched, hpost⟩ := Option.bind_eq_some_iff.1 hrun
  rw [List.forall_mem_append, List.forall_mem_cons] at hall
  have hs : s.Uninterrupted := ((runsUnder_true_iff.2 hpre).and_forall hall.1).invariant
    (fun _ _ _ hs hC h ↦ hs.step hC.2 h) (uninterrupted_start hpolicy)
  have ht : t.Uninterrupted := hs.step hall.2.1 hsched
  have hpending := hs.pending_scheduleReconnect hsched
  by_cases hwake : .reconnectWake ∈ post
  · have hheld : u.Held := ht.run (P := Held) (Q := fun a ↦ ¬ a.isOpen)
      (fun _ _ _ hs hP hQ ha h ↦ Held.step hs hP hQ ha h) (.inl hpending) hall.2.2 hopen hpost
    exact hheld.imp_right fun htaken ↦ ⟨hwake, htaken⟩
  · have hne : ∀ a ∈ post, a ≠ .reconnectWake := fun a ha heq ↦ hwake (heq ▸ ha)
    exact .inl (ht.run (P := fun s ↦ s.reconnectPending = true)
      (fun _ _ _ hs hP hQ ha h ↦ pending_of_step hs hP hQ ha h) hpending hall.2.2 hne hpost)

/-- The socket of `firstSession` drops during the back-off of an earlier drop. -/
theorem held_firstSession :
    ∃ u, machine.run (start 1 {}) ((firstSession ++ [.socketDisconnected, .scheduleReconnect,
        .reconnectWake, .socketDisconnected]) ++ .scheduleReconnect :: [.reconnectTimeout]) = some u ∧
      (u.reconnectPending = true ∨
        .reconnectWake ∈ [Action.reconnectTimeout] ∧ u.reconnectThread.HasTaken) := by
  obtain ⟨u, hu⟩ := Option.isSome_iff_exists.1 (show (machine.run (start 1 {})
    ((firstSession ++ [.socketDisconnected, .scheduleReconnect, .reconnectWake,
      .socketDisconnected]) ++ .scheduleReconnect :: [.reconnectTimeout])).isSome from by decide)
  refine ⟨u, hu, held_of_scheduleReconnect ⟨rfl, rfl⟩ ?_ (by decide) hu⟩
  simp [firstSession, firstConnect, Action.Uninterrupted]

end StreamBase

end Alpaca
