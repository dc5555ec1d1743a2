import AlpacaCpp.Limiter.Alone

/-!
# How long a caller waits

A lone caller is admitted from one instant on, `readyAt`: when the barrier is down and the bucket holds a
request. As long as no sum wraps, `try_acquire` succeeds from then on and `acquire` returns then.

`wait_time_ns` looks at the barrier first and at the bucket only when there is none, so it is exact unless
**the bucket is the later of the two while the barrier is still up** (`waitTimeNs_exact_iff`). The limiter
loop of `async_execute_raw` asks again after every timer, and so needs at most two of them
(`pollAcquire_of_acquire`).

`Unwrapped` is the condition under which the sums of a call fit. It is asked of the latest instant the
call looks at, and holds of the earlier ones with it.
-/

namespace Alpaca

namespace RateLimiter

/-- No sum that is formed at the clock value `t` exceeds 64 bits. -/
def Unwrapped (rl : RateLimiter) (t : ℕ) : Prop :=
  max rl.tat t + rl.intervalNs < 2 ^ 64 ∧ t + rl.burstNs < 2 ^ 64

instance (rl : RateLimiter) (t : ℕ) : Decidable (rl.Unwrapped t) :=
  inferInstanceAs (Decidable (_ ∧ _))

/-- When a lone caller is admitted at the earliest. -/
def readyAt (rl : RateLimiter) : ℕ := max rl.blockedUntil (rl.tat + rl.intervalNs - rl.burstNs)

variable {rl : RateLimiter} {t t' now : ℕ}

theorem Unwrapped.mono (h : rl.Unwrapped t') (hle : t ≤ t') : rl.Unwrapped t :=
  ⟨by have := h.1; omega, by have := h.2; omega⟩

theorem Unwrapped.newTat_eq (h : rl.Unwrapped t) : rl.newTat rl.tat t = max rl.tat t + rl.intervalNs :=
  u64_of_lt h.1

/-- **`try_acquire` succeeds from `readyAt` on.** -/
theorem tryAcquire_eq_true_iff (hpos : 1 ≤ rl.intervalNs) (hburst : rl.intervalNs ≤ rl.burstNs)
    (hfit : rl.Unwrapped t) : (rl.tryAcquire t).1 = true ↔ rl.readyAt ≤ t := by
  have hwindow : u64 (t + rl.burstNs) = t + rl.burstNs := u64_of_lt hfit.2
  rw [tryAcquire, hfit.newTat_eq, hwindow, if_neg (by omega), readyAt]
  split_ifs <;> simp <;> omega

/-- What is left until the slot is due. -/
theorem sleepNs_due (hburst : rl.intervalNs ≤ rl.burstNs) (hfit : rl.Unwrapped t) :
    sleepNs (rl.due (rl.newTat rl.tat t)) t = rl.tat + rl.intervalNs - rl.burstNs - t := by
  rw [hfit.newTat_eq, due, sleepNs]
  split_ifs <;> omega

/-- `wait_time_ns` reports the barrier while it is up, and `readyAt` after. -/
theorem waitTimeNs_eq (hpos : 1 ≤ rl.intervalNs) (hburst : rl.intervalNs ≤ rl.burstNs)
    (hfit : rl.Unwrapped t) :
    rl.waitTimeNs t = (if t < rl.blockedUntil then rl.blockedUntil else rl.readyAt) - t := by
  rw [waitTimeNs, sleepNs_due hburst hfit, if_neg (by omega), readyAt]
  split_ifs <;> omega

/-- **`acquire` returns at `readyAt`**, or at once. -/
theorem acquire_fst (hpos : 1 ≤ rl.intervalNs) (hburst : rl.intervalNs ≤ rl.burstNs)
    (hfit : rl.Unwrapped (max now rl.blockedUntil)) : (rl.acquire now).1 = max now rl.readyAt := by
  rw [acquire, if_neg (by omega)]
  split
  case isTrue hlt =>
    have hend : now + (rl.blockedUntil - now) = rl.blockedUntil := by omega
    have hfit' : rl.Unwrapped rl.blockedUntil := hfit.mono (Nat.le_max_right _ _)
    rw [hend, acquire, if_neg (by omega), if_neg (Nat.lt_irrefl _), sleepNs_due hburst hfit', readyAt]
    dsimp only
    omega
  case isFalse hlt =>
    rw [sleepNs_due hburst (hfit.mono (Nat.le_max_left _ _)), readyAt]
    dsimp only
    omega

/-- An `acquire` does not return before the barrier. -/
theorem le_acquire_fst (hpos : 1 ≤ rl.intervalNs) (now : ℕ) :
    max now rl.blockedUntil ≤ (rl.acquire now).1 := by
  rw [acquire, if_neg (by omega)]
  split
  case isTrue hlt =>
    have hend : now + (rl.blockedUntil - now) = rl.blockedUntil := by omega
    rw [hend, acquire, if_neg (by omega), if_neg (Nat.lt_irrefl _)]
    dsimp only
    omega
  case isFalse hlt =>
    dsimp only
    omega

/-! ### `wait_time_ns` -/

/-- The reported time is the waiting time: `try_acquire` succeeds after it and fails before. -/
def WaitExact (rl : RateLimiter) (now : ℕ) : Prop :=
  (rl.tryAcquire (now + rl.waitTimeNs now)).1 = true ∧
    ∀ t, now ≤ t → t < now + rl.waitTimeNs now → (rl.tryAcquire t).1 = false

/-- **Exactly when `wait_time_ns` is exact**: unless a barrier is up behind which the bucket is still
empty. -/
theorem waitTimeNs_exact_iff (hpos : 1 ≤ rl.intervalNs) (hburst : rl.intervalNs ≤ rl.burstNs)
    (hfit : rl.Unwrapped (now + rl.waitTimeNs now)) :
    rl.WaitExact now ↔
      (now < rl.blockedUntil → rl.tat + rl.intervalNs ≤ rl.blockedUntil + rl.burstNs) := by
  have hwait := waitTimeNs_eq hpos hburst (hfit.mono (Nat.le_add_right _ _))
  have hready : rl.readyAt = max rl.blockedUntil (rl.tat + rl.intervalNs - rl.burstNs) := rfl
  rw [WaitExact, tryAcquire_eq_true_iff hpos hburst hfit]
  have hbefore : (∀ t, now ≤ t → t < now + rl.waitTimeNs now → (rl.tryAcquire t).1 = false) ↔
      now + rl.waitTimeNs now ≤ max now rl.readyAt := by
    have hfails : ∀ t, t < now + rl.waitTimeNs now → ((rl.tryAcquire t).1 = false ↔ t < rl.readyAt) :=
      fun t ht ↦ by
        rw [← Bool.not_eq_true, tryAcquire_eq_true_iff hpos hburst (hfit.mono (Nat.le_of_lt ht)), not_le]
    constructor
    · intro h
      by_contra hlate
      have hlast : max now rl.readyAt < now + rl.waitTimeNs now := by omega
      have hlt := (hfails _ hlast).1 (h _ (Nat.le_max_left _ _) hlast)
      omega
    · exact fun h t hnow ht ↦ (hfails t ht).2 (by omega)
  rw [hbefore, hwait]
  split <;> omega

/-- A limiter of one request a second, at its barrier or past it. -/
theorem waitTimeNs_exact_new :
    ({ new 60 1 with blockedUntil := 5 } : RateLimiter).WaitExact 3 :=
  (waitTimeNs_exact_iff (by decide) (by decide) (by decide)).2 (by decide)

/-- **A slot reported too early**: two seconds are booked already when a barrier of one second goes up,
and `wait_time_ns` reports that one second. -/
theorem not_waitTimeNs_exact :
    ¬({ new 60 1 with tat := 3000000000, blockedUntil := 1000000000 } : RateLimiter).WaitExact 0 ∧
    ¬∀ (rl : RateLimiter) (now : ℕ), 1 ≤ rl.intervalNs → rl.intervalNs ≤ rl.burstNs →
      rl.Unwrapped (now + rl.waitTimeNs now) → rl.WaitExact now := by
  have hearly :
      ¬({ new 60 1 with tat := 3000000000, blockedUntil := 1000000000 } : RateLimiter).WaitExact 0 :=
    fun h ↦ absurd h.1 (by decide)
  exact ⟨hearly, fun h ↦ hearly (h _ 0 (by decide) (by decide) (by decide))⟩

/-! ### The limiter loop of a coroutine -/

/-- What the limiter loop of `async_execute_raw` ends with. -/
structure Polled where
  /-- The timers it waited for. -/
  timers : ℕ
  /-- When it was admitted. -/
  now : ℕ
  limiter : RateLimiter
  deriving DecidableEq

/-- The limiter loop of `async_execute_raw`, for at most `fuel` timers, each of which fires when it was
asked to. -/
def pollAcquire (rl : RateLimiter) (fuel now : ℕ) : Option Polled :=
  if (rl.tryAcquire now).1 then some ⟨0, now, (rl.tryAcquire now).2⟩
  else
    match fuel with
    | 0 => none
    | fuel + 1 =>
      (rl.pollAcquire fuel (now + max (rl.waitTimeNs now) 1000000)).map fun p ↦
        { p with timers := p.timers + 1 }

theorem pollAcquire_of_true (h : (rl.tryAcquire now).1 = true) (fuel : ℕ) :
    rl.pollAcquire fuel now = some ⟨0, now, (rl.tryAcquire now).2⟩ := by
  rw [pollAcquire.eq_def, if_pos h]

/-- One more timer. -/
theorem pollAcquire_succ {fuel : ℕ} {p : Polled} (h : (rl.tryAcquire now).1 = false)
    (hrest : rl.pollAcquire fuel (now + max (rl.waitTimeNs now) 1000000) = some p) :
    rl.pollAcquire (fuel + 1) now = some { p with timers := p.timers + 1 } := by
  rw [pollAcquire, if_neg (by simp [h]), hrest]
  rfl

/-- **The limiter loop ends after at most two timers**, not before `acquire` would return and at most a
millisecond later. -/
theorem pollAcquire_of_acquire (hpos : 1 ≤ rl.intervalNs) (hburst : rl.intervalNs ≤ rl.burstNs)
    (hfit : rl.Unwrapped ((rl.acquire now).1 + 1000000)) :
    ∃ p, rl.pollAcquire 2 now = some p ∧ p.timers ≤ 2 ∧ (rl.acquire now).1 ≤ p.now ∧
      p.now ≤ (rl.acquire now).1 + 1000000 := by
  have hreturn : (rl.acquire now).1 = max now rl.readyAt :=
    acquire_fst hpos hburst
      (hfit.mono ((le_acquire_fst hpos now).trans (Nat.le_add_right _ _)))
  rw [hreturn] at hfit ⊢
  have hbarrier : rl.blockedUntil ≤ rl.readyAt := Nat.le_max_left _ _
  -- a poll that fails is before `readyAt`, and the next one at most a millisecond behind it
  have hpoll : ∀ t, now ≤ t → t ≤ max now rl.readyAt + 1000000 →
      ((rl.tryAcquire t).1 = true ↔ rl.readyAt ≤ t) ∧
        rl.waitTimeNs t = (if t < rl.blockedUntil then rl.blockedUntil else rl.readyAt) - t :=
    fun t _ hle ↦ ⟨tryAcquire_eq_true_iff hpos hburst (hfit.mono hle),
      waitTimeNs_eq hpos hburst (hfit.mono hle)⟩
  obtain ⟨htry, hwait⟩ := hpoll now le_rfl (by omega)
  by_cases hready : rl.readyAt ≤ now
  · exact ⟨_, pollAcquire_of_true (htry.2 hready) 2, Nat.zero_le 2, by simp; omega, by simp; omega⟩
  have hfails : (rl.tryAcquire now).1 = false := by rw [← Bool.not_eq_true, htry]; exact hready
  generalize hnext : now + max (rl.waitTimeNs now) 1000000 = next
  have hbound : rl.blockedUntil ≤ next ∧ now + 1000000 ≤ next ∧ next ≤ rl.readyAt + 1000000 := by
    split at hwait <;> omega
  obtain ⟨htry', hwait'⟩ := hpoll next (by omega) (by omega)
  by_cases hready' : rl.readyAt ≤ next
  · have hsecond := pollAcquire_of_true (htry'.2 hready') 1
    refine ⟨_, pollAcquire_succ hfails (by rw [hnext]; exact hsecond), ?_, ?_, ?_⟩ <;> simp <;> omega
  have hfails' : (rl.tryAcquire next).1 = false := by rw [← Bool.not_eq_true, htry']; exact hready'
  -- the barrier is down, so the second timer waits for the bucket
  rw [if_neg (by omega)] at hwait'
  generalize hlast : next + max (rl.waitTimeNs next) 1000000 = last
  obtain ⟨htry'', -⟩ := hpoll last (by omega) (by omega)
  have hthird := pollAcquire_of_true (htry''.2 (by omega)) 0
  have hsecond := pollAcquire_succ hfails' (by rw [hlast]; exact hthird)
  refine ⟨_, pollAcquire_succ hfails (by rw [hnext]; exact hsecond), ?_, ?_, ?_⟩ <;> simp <;> omega

/-- Two seconds are booked when a barrier of one second goes up: one timer for the barrier, one for the
bucket. -/
theorem pollAcquire_of_acquire_barrier :
    ∃ p, ({ new 60 1 with tat := 3000000000, blockedUntil := 1000000000 } : RateLimiter).pollAcquire 2 0 =
        some p ∧ p.timers ≤ 2 ∧
      (({ new 60 1 with tat := 3000000000, blockedUntil := 1000000000 } : RateLimiter).acquire 0).1 ≤
        p.now ∧
      p.now ≤
        (({ new 60 1 with tat := 3000000000, blockedUntil := 1000000000 } : RateLimiter).acquire 0).1 +
          1000000 :=
  pollAcquire_of_acquire (by decide) (by decide)
    (by rw [acquire_fst (by decide) (by decide) (by decide)]; decide)

end RateLimiter

end Alpaca
