import AlpacaCpp.Http.RequestContext
import AlpacaCpp.Streaming.Drops

/-!
# What a reconnect policy promises

A `reconnect_policy` bounds the reconnect loop in two ways: by the pause before each attempt, and, with
`max_attempts`, by the number of attempts.

* The pause is the initial one, doubled for every attempt that has failed, and capped. The REST side
  has the same rule in `next_backoff_ms`, as a loop instead of a shift; `backoff_schedules` compares
  the two with the exact power, and with each other.
* The limit is tested where a reconnect is requested, by the service thread, and counted where the
  request is taken, by the reconnect thread. `Limited` links the request flag to the counter, and
  `reconnects_le_maxAttempts` draws the two conclusions: the counter stays within the limit, and
  without a `mark_ready` in between one `connect` is followed by no more reconnects than that.

With `max_attempts = 0` there is no limit, and nothing is said about the number of reconnects; what holds
then is in `Streaming/Drops`. The pause is compared for all 32-bit values of the policy, whatever their
order.
-/

namespace Alpaca

/-! ### The pause before an attempt

Two spellings of one rule. The shift is capped at 20, and the loop stops at the cap of the pause; both
multiply in a word of 64 bits. The power they are compared with is over the naturals, so that a wrap would
show. -/

/-- The doubling loop stops at the cap before the word can overflow. -/
theorem doubleBackoff_eq {max : ℕ} (hmax : max < 2 ^ 63) (left : ℕ) {backoff : ℕ}
    (hbackoff : backoff < 2 ^ 63) : doubleBackoff max left backoff = min (backoff * 2 ^ left) max := by
  induction left generalizing backoff with
  | zero => rw [doubleBackoff, Nat.pow_zero, Nat.mul_one]
  | succ left ih =>
    have hword : u64 (backoff * 2) = backoff * 2 := u64_of_lt (by omega)
    have hpow : backoff * 2 ^ (left + 1) = backoff * 2 * 2 ^ left := by
      rw [Nat.pow_succ', Nat.mul_assoc]
    rw [doubleBackoff, hword, hpow]
    split
    case isTrue hcap =>
      exact (Nat.min_eq_right (hcap.trans (Nat.le_mul_of_pos_right _ (Nat.two_pow_pos left)))).symm
    case isFalse hcap => exact ih (by omega)

/-- **`next_backoff_ms` is exact**, for every attempt. -/
theorem nextBackoffMs_eq (policy : RetryPolicy) (failures : ℕ) :
    nextBackoffMs policy (failures + 1) =
      min (policy.initialBackoffMs.toNat * 2 ^ failures) policy.maxBackoffMs.toNat := by
  have hinitial := policy.initialBackoffMs.toNat_lt
  have hmax := policy.maxBackoffMs.toNat_lt
  exact doubleBackoff_eq (by omega) failures (by omega)

/-- The shift of the reconnect loop never leaves the 64-bit word. -/
theorem ReconnectPolicy.backoff_eq (policy : ReconnectPolicy) (attempt : UInt32) :
    policy.backoff attempt =
      min (policy.initialBackoffMs.toNat * 2 ^ min attempt.toNat 20) policy.maxBackoffMs.toNat := by
  have hinitial := policy.initialBackoffMs.toNat_lt
  have hpow : 2 ^ min attempt.toNat 20 ≤ 2 ^ 20 :=
    Nat.pow_le_pow_right Nat.two_pos (Nat.min_le_right _ _)
  have hword : policy.initialBackoffMs.toNat * 2 ^ min attempt.toNat 20 < 2 ^ 64 :=
    calc _ ≤ policy.initialBackoffMs.toNat * 2 ^ 20 := Nat.mul_le_mul_left _ hpow
      _ < 2 ^ 64 := by omega
  rw [backoff, Nat.shiftLeft_eq, u64_of_lt hword]

/-- A capped power with a capped exponent: the exponent's cap shows unless the other cap is reached
first. -/
theorem min_mul_two_pow_min_eq_iff (x k n max : ℕ) :
    min (x * 2 ^ min k n) max = min (x * 2 ^ k) max ↔ k ≤ n ∨ x = 0 ∨ max ≤ x * 2 ^ n := by
  rcases le_or_gt k n with hle | hgt
  · simp [hle]
  · rw [Nat.min_eq_right hgt.le]
    rcases Nat.eq_zero_or_pos x with rfl | hx
    · simp
    · have hlt : x * 2 ^ n < x * 2 ^ k :=
        Nat.mul_lt_mul_of_pos_left (Nat.pow_lt_pow_right Nat.one_lt_two hgt) hx
      omega

/-- **The two schedules.** The one of the REST calls is the exact power, capped, for every number of
failures. The one of the streams never overflows either, but it doubles at most 20 times: it is the
exact power, capped, and hence the same function as the other, if and only if so many failures have
not occurred, the first pause is zero, or 20 doublings reach the cap. -/
theorem backoff_schedules (rest : RetryPolicy) (stream : ReconnectPolicy) (failures : ℕ)
    (attempt : UInt32) :
    nextBackoffMs rest (failures + 1) =
        min (rest.initialBackoffMs.toNat * 2 ^ failures) rest.maxBackoffMs.toNat ∧
      stream.backoff attempt =
        min (stream.initialBackoffMs.toNat * 2 ^ min attempt.toNat 20) stream.maxBackoffMs.toNat ∧
      (stream.backoff attempt =
          min (stream.initialBackoffMs.toNat * 2 ^ attempt.toNat) stream.maxBackoffMs.toNat ↔
        attempt.toNat ≤ 20 ∨ stream.initialBackoffMs.toNat = 0 ∨
          stream.maxBackoffMs.toNat ≤ stream.initialBackoffMs.toNat * 2 ^ 20) ∧
      (nextBackoffMs { rest with
          initialBackoffMs := stream.initialBackoffMs
          maxBackoffMs := stream.maxBackoffMs } (attempt.toNat + 1) = stream.backoff attempt ↔
        attempt.toNat ≤ 20 ∨ stream.initialBackoffMs.toNat = 0 ∨
          stream.maxBackoffMs.toNat ≤ stream.initialBackoffMs.toNat * 2 ^ 20) := by
  have hstream := stream.backoff_eq attempt
  refine ⟨nextBackoffMs_eq rest failures, hstream, ?_, ?_⟩
  · rw [hstream]
    exact min_mul_two_pow_min_eq_iff _ _ _ _
  · rw [nextBackoffMs_eq, hstream, eq_comm]
    exact min_mul_two_pow_min_eq_iff _ _ _ _

/-- A first pause of 1 ms under the largest cap: the streams never pause for longer than 2 ^ 20 ms,
about 17 minutes. -/
theorem backoff_not_exact :
    ¬ ∀ (policy : ReconnectPolicy) (attempt : UInt32), policy.backoff attempt =
      min (policy.initialBackoffMs.toNat * 2 ^ attempt.toNat) policy.maxBackoffMs.toNat := by
  intro h
  exact absurd (h { initialBackoffMs := 1, maxBackoffMs := 0xFFFFFFFF } 21) (by decide)

/-! ### The limit on the attempts

The flag is raised only while the counter is below the limit, and it is lowered where the counter goes up.
A policy that is changed in between would break the link, so its change is excluded here. -/

namespace StreamBase

open Machine

variable {s t u : StreamBase} {a : Action} {i : ℕ} {pc pc' : CallerPc} {callers : ℕ}
  {policy : ReconnectPolicy}

/-- A call of `set_reconnect_policy`. -/
def Action.isSetPolicy : Action → Bool
  | .setReconnectPolicy _ => true
  | _ => false

/-- The counter is within the limit, and a pending request leaves room for the attempt it asks for. -/
structure Limited (policy : ReconnectPolicy) (s : StreamBase) : Prop where
  reconnect : s.reconnect = policy
  attempt_le : s.reconnectAttempt.toNat ≤ policy.maxAttempts.toNat
  pending : s.reconnectPending = true → s.reconnectAttempt.toNat < policy.maxAttempts.toNat

theorem limited_start : (start callers policy).Limited policy :=
  ⟨rfl, Nat.zero_le _, fun h ↦ absurd h Bool.false_ne_true⟩

/-- Setting the counter back leaves room for an attempt. -/
theorem Limited.reset (hs : s.Limited policy) (hlimit : 0 < policy.maxAttempts.toNat)
    (hpolicy : t.reconnect = s.reconnect) (hzero : t.reconnectAttempt = 0) : t.Limited policy := by
  have hzero' : t.reconnectAttempt.toNat = 0 := congrArg UInt32.toNat hzero
  exact ⟨hpolicy.trans hs.reconnect, hzero' ▸ Nat.zero_le _, fun _ ↦ hzero' ▸ hlimit⟩

/-- Below the limit the counter does not wrap. -/
theorem toNat_add_one_of_lt {x y : UInt32} (h : x.toNat < y.toNat) : (x + 1).toNat = x.toNat + 1 := by
  have hy := y.toNat_lt
  rw [UInt32.toNat_add, UInt32.toNat_one, Nat.mod_eq_of_lt (by omega)]

/-- The reconnect thread takes a request, or leaves. -/
theorem Limited.wakeSection (hs : s.Limited policy) (hwake : s.stopping ∨ s.reconnectPending) :
    s.wakeSection.Limited policy := by
  unfold StreamBase.wakeSection
  split
  case isTrue => exact ⟨hs.reconnect, hs.attempt_le, hs.pending⟩
  case isFalse hstopping =>
    have hlt := hs.pending (hwake.resolve_left hstopping)
    refine ⟨hs.reconnect, ?_, fun h ↦ absurd h Bool.false_ne_true⟩
    show (s.reconnectAttempt + 1).toNat ≤ _
    rw [toNat_add_one_of_lt hlt]
    exact hlt

/-- A request is only left below the limit. -/
theorem Limited.scheduleReconnect (hs : s.Limited policy) (hlimit : 0 < policy.maxAttempts.toNat) :
    s.scheduleReconnect.Limited policy := by
  unfold StreamBase.scheduleReconnect
  split
  · exact ⟨hs.reconnect, hs.attempt_le, hs.pending⟩
  · split
    case isTrue => exact ⟨hs.reconnect, hs.attempt_le, hs.pending⟩
    case isFalse hroom =>
      have hne : s.reconnect.maxAttempts ≠ 0 := by
        rw [hs.reconnect]
        rintro heq
        rw [heq] at hlimit
        exact absurd hlimit (Nat.lt_irrefl 0)
      have hlt := UInt32.lt_iff_toNat_lt.1 (UInt32.not_le.1 fun hle ↦ hroom ⟨hne, hle⟩)
      rw [hs.reconnect] at hlt
      exact ⟨hs.reconnect, hs.attempt_le, fun _ ↦ hlt⟩

/-- **Step lemma.** The link between the flag and the counter is kept. -/
theorem Limited.step (hs : s.Limited policy) (hlimit : 0 < policy.maxAttempts.toNat)
    (ha : ¬ a.isSetPolicy) (h : s.step a = some t) : t.Limited policy := by
  cases a <;> rw [StreamBase.step, whenever_eq_some] at h <;> obtain ⟨hg, rfl⟩ := h
  case connectLock i =>
    unfold connectSection
    split
    case isTrue => exact ⟨hs.reconnect, hs.attempt_le, hs.pending⟩
    case isFalse => exact hs.reset hlimit rfl rfl
  case disconnectLock i => exact ⟨hs.reconnect, hs.attempt_le, fun h ↦ absurd h Bool.false_ne_true⟩
  case shutdownLock i =>
    unfold shutdownSection
    split <;> exact ⟨hs.reconnect, hs.attempt_le, hs.pending⟩
  case setReconnectPolicy policy => exact absurd rfl ha
  case reconnectWake => exact hs.wakeSection hg.2
  case scheduleReconnect => exact hs.scheduleReconnect hlimit
  case resetAttempt => exact hs.reset hlimit rfl rfl
  all_goals exact ⟨hs.reconnect, hs.attempt_le, hs.pending⟩

/-! ### The calls of `connect`

The reconnect thread is started by the first `connect`, and a `connect` sets the counter back. To bound
the reconnects of one call, the calls in a run are counted against what shows of them in the state. -/

/-- The calls of `connect` that show in a state: those on their way to the locked section, and one
that has started the reconnect thread. -/
def connects (s : StreamBase) : ℕ :=
  s.callers.count .connectLock + if s.reconnectThread = .notStarted then 0 else 1

/-- A user thread at the locked section of `connect` counts, and no other. -/
theorem count_setCaller (hi : s.CallerAt i pc) (pc' : CallerPc) :
    (s.setCaller i pc').callers.count .connectLock + (if pc = .connectLock then 1 else 0) =
      s.callers.count .connectLock + if pc' = .connectLock then 1 else 0 := by
  obtain ⟨hlt, hpc⟩ := List.getElem?_eq_some_iff.1 hi
  have hset := List.count_set (a := pc') (b := .connectLock) hlt
  rw [hpc] at hset
  show (s.callers.set i pc').count .connectLock + _ = _
  rw [hset]
  simp only [beq_iff_eq]
  split
  case isTrue heq =>
    have hpos : 0 < s.callers.count .connectLock := List.count_pos_iff.2 (heq ▸ List.mem_of_getElem? hi)
    omega
  case isFalse => omega

/-- Moves of a user thread that neither enter nor leave the locked section of `connect`. -/
theorem connects_setCaller (hi : s.CallerAt i pc) (hpc : pc ≠ .connectLock) (hpc' : pc' ≠ .connectLock) :
    (s.setCaller i pc').connects ≤ s.connects := by
  have hcount := count_setCaller hi pc'
  rw [if_neg hpc, if_neg hpc', Nat.add_zero, Nat.add_zero] at hcount
  exact Nat.add_le_add_right hcount.le _

/-- The labels of the reconnect thread find it started and leave it so. -/
theorem connects_of_thread (hcallers : t.callers = s.callers) (hs : s.reconnectThread ≠ .notStarted)
    (ht : t.reconnectThread ≠ .notStarted) : t.connects ≤ s.connects := by
  rw [connects, connects, hcallers, if_neg hs, if_neg ht]

theorem started_of_isBackingOff {thread : ReconnectPc} (h : thread.isBackingOff) :
    thread ≠ .notStarted := by
  rintro rfl
  exact Bool.false_ne_true h

/-- A reconnect thread that wakes up has been started. -/
theorem started_wakeSection : s.wakeSection.reconnectThread ≠ .notStarted := by
  unfold wakeSection
  split
  · exact ReconnectPc.noConfusion
  · dsimp only
    split <;> exact ReconnectPc.noConfusion

theorem started_interruptSection : s.interruptSection.reconnectThread ≠ .notStarted := by
  unfold interruptSection
  dsimp only
  split <;> exact ReconnectPc.noConfusion

/-- Who leaves the locked section may have started the reconnect thread in it. -/
theorem connects_connectSection (hi : s.CallerAt i .connectLock) :
    (s.connectSection i).connects ≤ s.connects := by
  obtain ⟨pc, hpc, hcallers⟩ : ∃ pc, pc ≠ .connectLock ∧
      (s.connectSection i).callers = (s.setCaller i pc).callers := by
    unfold connectSection
    split
    · exact ⟨.idle, by decide, rfl⟩
    · exact ⟨.connectStore, by decide, rfl⟩
  have hcount := count_setCaller hi pc
  rw [if_pos rfl, if_neg hpc] at hcount
  rw [connects, connects, hcallers]
  split <;> omega

/-- **Step lemma.** Only a call of `connect` adds to the calls that show. -/
theorem connects_of_step (ha : ¬ a.isConnect) (h : s.step a = some t) : t.connects ≤ s.connects := by
  cases a <;> rw [StreamBase.step, whenever_eq_some] at h <;> obtain ⟨hg, rfl⟩ := h
  case callConnect i => exact absurd rfl ha
  case connectLock i => exact connects_connectSection hg.1
  case connectStore i | connectOpen i | disconnectClose i | disconnectReturn i | shutdownClose i |
      shutdownReturn i =>
    exact connects_setCaller hg (by decide) (by decide)
  case connectReturn i | disconnectLock i | shutdownJoin i =>
    exact connects_setCaller hg.1 (by decide) (by decide)
  case shutdownLock i =>
    unfold shutdownSection
    split <;> exact connects_setCaller hg.1 (by decide) (by decide)
  case reconnectWake =>
    have hcallers : s.wakeSection.callers = s.callers := by
      unfold wakeSection
      split <;> rfl
    exact connects_of_thread hcallers (hg.1 ▸ ReconnectPc.noConfusion) started_wakeSection
  case reconnectInterrupt =>
    exact connects_of_thread rfl (started_of_isBackingOff hg.1) started_interruptSection
  case reconnectTimeout =>
    exact connects_of_thread rfl (started_of_isBackingOff hg.1) ReconnectPc.noConfusion
  case reconnectUnlock | reconnectStore | reconnectOpen =>
    exact connects_of_thread rfl (hg ▸ ReconnectPc.noConfusion) ReconnectPc.noConfusion
  case scheduleReconnect =>
    unfold StreamBase.scheduleReconnect
    split
    · exact Nat.le_refl _
    · split <;> exact Nat.le_refl _
  all_goals exact Nat.le_refl _

/-- A call of `connect` adds one. -/
theorem connects_of_callConnect (h : s.step (.callConnect i) = some t) :
    t.connects = s.connects + 1 := by
  obtain ⟨hg, rfl⟩ := whenever_eq_some.1 h
  have hcount := count_setCaller hg .connectLock
  rw [if_neg (by decide), if_pos rfl, Nat.add_zero] at hcount
  rw [connects, hcount]
  exact Nat.add_right_comm _ _ _

/-! ### One `connect`, and no `mark_ready`

Each opening by the reconnect thread is paid for by one step of the counter. Since only a `connect` and
`mark_ready` set it back, the openings of a run without either are at most the limit. -/

/-- So many reconnects are paid for by the counter. One more is already counted while the reconnect
thread is on its way to it. -/
structure Paid (opens : ℕ) (s : StreamBase) : Prop where
  opens_le : opens ≤ s.reconnectAttempt.toNat
  taken : s.reconnectThread.HasTaken → opens < s.reconnectAttempt.toNat
  notStarted : s.reconnectThread = .notStarted → opens = 0

variable {opens : ℕ}

theorem paid_start : (start callers policy).Paid 0 :=
  ⟨Nat.zero_le _, False.elim, fun _ ↦ rfl⟩

/-- A thread that backs off has taken a request. -/
theorem hasTaken_of_isBackingOff {thread : ReconnectPc} (h : thread.isBackingOff) :
    thread.HasTaken := by
  cases thread
  case backingOff ms => trivial
  all_goals exact absurd h Bool.false_ne_true

/-- On its way to the socket the reconnect thread stays paid for, and it may turn round. -/
theorem Paid.move (hs : s.Paid opens) (hattempt : t.reconnectAttempt = s.reconnectAttempt)
    (htaken : s.reconnectThread.HasTaken) (hstarted : t.reconnectThread ≠ .notStarted) :
    t.Paid opens := by
  have hlt := hattempt ▸ hs.taken htaken
  exact ⟨hlt.le, fun _ ↦ hlt, fun h ↦ absurd h hstarted⟩

/-- A request that is taken pays for one more. -/
theorem Paid.wakeSection (hs : s.Paid opens) (hlimited : s.Limited policy)
    (hwake : s.stopping ∨ s.reconnectPending) : s.wakeSection.Paid opens := by
  by_cases hstopping : s.stopping = true
  · rw [StreamBase.wakeSection, if_pos hstopping]
    exact ⟨hs.opens_le, False.elim, ReconnectPc.noConfusion⟩
  · have hcount := toNat_add_one_of_lt (hlimited.pending (hwake.resolve_left hstopping))
    have hlt : opens < s.wakeSection.reconnectAttempt.toNat := by
      rw [StreamBase.wakeSection, if_neg hstopping]
      exact hcount ▸ Nat.lt_succ_of_le hs.opens_le
    exact ⟨hlt.le, fun _ ↦ hlt, fun h ↦ absurd h started_wakeSection⟩

/-- A `connect` that sets the counter back is the one that starts the reconnect thread. -/
theorem Paid.connectSection (hs : s.Paid opens) (hi : s.CallerAt i .connectLock)
    (hconnects : s.connects ≤ 1) : (s.connectSection i).Paid opens := by
  unfold StreamBase.connectSection
  split
  case isTrue => exact ⟨hs.opens_le, hs.taken, hs.notStarted⟩
  case isFalse =>
    have hpos : 0 < s.callers.count .connectLock := List.count_pos_iff.2 (List.mem_of_getElem? hi)
    have hthread : s.reconnectThread = .notStarted := by
      by_contra hne
      rw [connects, if_neg hne] at hconnects
      omega
    obtain rfl := hs.notStarted hthread
    rw [if_pos hthread]
    exact ⟨Nat.zero_le _, False.elim, fun _ ↦ rfl⟩

/-- **Step lemma.** Nothing but a `ws.open()` of the reconnect thread and a `mark_ready` touches what
is paid. -/
theorem Paid.step (hs : s.Paid opens) (hlimited : s.Limited policy) (hconnects : s.connects ≤ 1)
    (hservice : s.service ≠ .resetAttempt) (hopen : a ≠ .reconnectOpen) (h : s.step a = some t) :
    t.Paid opens := by
  cases a <;> rw [StreamBase.step, whenever_eq_some] at h <;> obtain ⟨hg, rfl⟩ := h
  case reconnectOpen => exact absurd rfl hopen
  case resetAttempt => exact absurd hg.1 hservice
  case connectLock i => exact hs.connectSection hg.1 hconnects
  case shutdownLock i =>
    unfold shutdownSection
    split <;> exact ⟨hs.opens_le, hs.taken, hs.notStarted⟩
  case reconnectWake => exact hs.wakeSection hlimited hg.2
  case reconnectInterrupt =>
    exact hs.move rfl (hasTaken_of_isBackingOff hg.1) started_interruptSection
  case reconnectTimeout => exact hs.move rfl (hasTaken_of_isBackingOff hg.1) ReconnectPc.noConfusion
  case reconnectUnlock | reconnectStore => exact hs.move rfl (hg ▸ trivial) ReconnectPc.noConfusion
  case scheduleReconnect =>
    unfold StreamBase.scheduleReconnect
    split
    · exact ⟨hs.opens_le, hs.taken, hs.notStarted⟩
    · split <;> exact ⟨hs.opens_le, hs.taken, hs.notStarted⟩
  all_goals exact ⟨hs.opens_le, hs.taken, hs.notStarted⟩

/-- The `ws.open()` of the reconnect thread uses up what was paid for it. -/
theorem Paid.reconnectOpen (hs : s.Paid opens) (h : s.step .reconnectOpen = some t) :
    t.Paid (opens + 1) := by
  obtain ⟨hg, rfl⟩ := whenever_eq_some.1 h
  exact ⟨hs.taken (hg ▸ trivial), False.elim, ReconnectPc.noConfusion⟩

/-- Without `mark_ready` the service thread never comes to reset the counter. -/
theorem service_ne_resetAttempt (hs : s.service ≠ .resetAttempt) (ha : a ≠ .storeReady)
    (h : s.step a = some t) : t.service ≠ .resetAttempt := by
  rw [service_of_step h]
  cases a
  case storeReady => exact absurd rfl ha
  all_goals first | exact hs | exact ServicePc.noConfusion

/-- What the labels taken so far have left behind, as long as `connect` was called once at most. -/
structure Tally (policy : ReconnectPolicy) (s : StreamBase) (log : List Action) : Prop where
  limited : s.Limited policy
  service : s.service ≠ .resetAttempt
  connects_le : s.connects ≤ log.countP Action.isConnect
  paid : log.countP Action.isConnect ≤ 1 → s.Paid (log.count .reconnectOpen)

/-- **Step lemma.** -/
theorem Tally.step {log : List Action} (hs : s.Tally policy log)
    (hlimit : 0 < policy.maxAttempts.toNat) (hset : ¬ a.isSetPolicy) (hready : a ≠ .storeReady)
    (h : s.step a = some t) : t.Tally policy (log ++ [a]) where
  limited := hs.limited.step hlimit hset h
  service := service_ne_resetAttempt hs.service hready h
  connects_le := by
    rw [List.countP_append, List.countP_singleton]
    split
    case isTrue hconnect =>
      obtain ⟨i, rfl⟩ : ∃ i, a = .callConnect i := by
        cases a <;> first | exact ⟨_, rfl⟩ | exact absurd hconnect Bool.false_ne_true
      exact (connects_of_callConnect h).le.trans (Nat.add_le_add_right hs.connects_le 1)
    case isFalse hconnect => exact (connects_of_step hconnect h).trans hs.connects_le
  paid hone := by
    rw [List.countP_append] at hone
    have hpaid := hs.paid (Nat.le_of_add_right_le hone)
    rw [List.count_append, List.count_singleton]
    split
    case isTrue hopen => exact beq_iff_eq.1 hopen ▸ hpaid.reconnectOpen (beq_iff_eq.1 hopen ▸ h)
    case isFalse hopen =>
      exact hpaid.step hs.limited (hs.connects_le.trans (Nat.le_of_add_right_le hone)) hs.service
        (fun heq ↦ hopen (beq_iff_eq.2 heq)) h

/-- At first there have been no calls. -/
theorem tally_start : (start callers policy).Tally policy [] where
  limited := limited_start
  service := ServicePc.noConfusion
  connects_le := by
    rw [connects, start, if_pos rfl, List.count_replicate, if_neg (by decide)]
    exact Nat.le_refl _
  paid _ := paid_start

/-- **The limit on the attempts.** Take any run of a stream with a limited policy that nobody replaces.
The counter never exceeds the limit; and if `connect` is called once at most and the stream never becomes
ready, the reconnect thread calls `ws.open()` no more often than that. -/
theorem reconnects_le_maxAttempts {as : List Action} (hlimit : 0 < policy.maxAttempts.toNat)
    (hfixed : ∀ a ∈ as, ¬ a.isSetPolicy) (hrun : machine.run (start callers policy) as = some u) :
    u.reconnectAttempt.toNat ≤ policy.maxAttempts.toNat ∧
      (as.countP Action.isConnect ≤ 1 → .storeReady ∉ as →
        as.count .reconnectOpen ≤ policy.maxAttempts.toNat) := by
  have hruns := (runsUnder_true_iff.2 hrun).and_forall hfixed
  refine ⟨?_, fun hone hready ↦ ?_⟩
  · have hlimited : u.Limited policy := hruns.invariant
      (fun _ _ _ hs hC h ↦ hs.step hlimit hC.2 h) limited_start
    exact hlimited.attempt_le
  · have hne : ∀ a ∈ as, a ≠ .storeReady := fun a ha heq ↦ hready (heq ▸ ha)
    have htally : u.Tally policy as := (hruns.and_forall hne).invariant_labels (l := [])
      (fun _ _ _ _ hs hC h ↦ hs.step hlimit hC.1.2 hC.2 h) tally_start
    exact (htally.paid hone).opens_le.trans htally.limited.attempt_le

/-- The socket of `firstConnect` drops, is opened once more, and drops again. -/
def dropTwice : List Action :=
  firstConnect ++
    [.socketDisconnected, .scheduleReconnect, .reconnectWake, .reconnectTimeout, .reconnectUnlock,
      .reconnectStore, .reconnectOpen, .openFailed, .socketDisconnected, .scheduleReconnect]

/-- With a limit of one, the second drop is not answered any more. -/
theorem reconnects_le_maxAttempts_dropTwice :
    ∃ u, machine.run (start 1 { maxAttempts := 1 }) dropTwice = some u ∧
      u.reconnectAttempt.toNat ≤ 1 ∧ dropTwice.count .reconnectOpen ≤ 1 := by
  obtain ⟨u, hu⟩ := Option.isSome_iff_exists.1
    (show (machine.run (start 1 { maxAttempts := 1 }) dropTwice).isSome from by decide)
  obtain ⟨hattempt, hopens⟩ := reconnects_le_maxAttempts (by decide) (by decide) hu
  exact ⟨u, hu, hattempt, hopens (by decide) (by decide)⟩

end StreamBase

end Alpaca
