import AlpacaCpp.Limiter.Barrier

/-!
# A caller on its own

`try_acquire`, `acquire` and `wait_time_ns` as functions of the limiter and the clock, for a caller that
no other thread runs beside. The code takes no time, and a sleep lasts as long as it was asked to.

They are not a second model: `tryAcquire_of_lone` and `acquire_of_lone` derive them from the machine,
for any number of spurious failures. The invariant of such a run says of each position of the thread
what is left to do from there (`Pc.Trying`, `Pc.Acquiring`): whatever the thread still does, it ends with what
the function computes from the limiter and the clock it was called with.

A sleep is the only access that lets time pass (`Pc.next`). After the sleep for a barrier, `acquire` goes back
to the start with a later clock, which is why the function is recursive.
-/

namespace Alpaca

namespace RateLimiter

open Machine

/-- `try_acquire`: whether it succeeds, and the limiter behind it. -/
def tryAcquire (rl : RateLimiter) (now : ℕ) : Bool × RateLimiter :=
  if rl.intervalNs = 0 then (true, rl)
  else if now < rl.blockedUntil then (false, rl)
  else if rl.newTat rl.tat now > u64 (now + rl.burstNs) then (false, rl)
  else (true, { rl with tat := rl.newTat rl.tat now })

/-- `acquire`: when it returns, and the limiter behind it. -/
def acquire (rl : RateLimiter) (now : ℕ) : ℕ × RateLimiter :=
  if rl.intervalNs = 0 then (now, rl)
  else if now < rl.blockedUntil then rl.acquire (now + (rl.blockedUntil - now))
  else
    (now + sleepNs (rl.due (rl.newTat rl.tat now)) now, { rl with tat := rl.newTat rl.tat now })
termination_by rl.blockedUntil - now

/-- `wait_time_ns` -/
def waitTimeNs (rl : RateLimiter) (now : ℕ) : ℕ :=
  if rl.intervalNs = 0 then 0
  else if now < rl.blockedUntil then rl.blockedUntil - now
  else sleepNs (rl.due (rl.newTat rl.tat now)) now

/-! ### Derived from the machine -/

/-- When a thread makes its next access: at the end of its sleep, or at once. -/
def Pc.next (clock : ℕ) : Pc → ℕ
  | .acquireBlocked now₀ ns | .acquireSleep now₀ ns => now₀ + ns
  | _ => clock

/-- The thread `i` runs and no other does. -/
def Lone (i : ℕ) (s : Timed State) : Action → Prop
  | .call _ _ => False
  | .go j now _ => j = i ∧ now = (s.state.threads i).next s.now

variable {rl current : RateLimiter} {now clock i : ℕ} {s t u : Timed State} {a : Action}
  {as : List Action}

/-- A thread has just entered a member function. -/
def entered (s : Timed State) (i : ℕ) (c : Call) : Timed State where
  state := { s.state with threads := Function.update s.state.threads i (s.state.limiter.enter c) }
  now := s.now

/-- A call, alone and to its end. -/
structure LoneCall (s : Timed State) (i : ℕ) (c : Call) (as : List Action) (u : Timed State) : Prop where
  idle : s.state.threads i = .idle
  run : clocked.RunsUnder (Lone i) (entered s i c) as u
  returned : u.state.threads i = .idle

/-- The admissions of a run. -/
def admissions (s : Timed State) (as : List Action) : List (Arrival ℕ) :=
  clocked.trace (fun s a ↦ admission s.state a) s as

/-- What is left of a `try_acquire` that began at `now`, with `admitted` so far. -/
def Pc.Trying (rl : RateLimiter) (now : ℕ) (current : RateLimiter) (admitted : List (Arrival ℕ)) :
    Pc → Prop
  | .idle => (decide (admitted ≠ []), current) = rl.tryAcquire now
  | .tryClock => admitted = [] ∧ current = rl
  | .tryBarrier now₀ => admitted = [] ∧ current = rl ∧ now₀ = now
  | .tryTat now₀ => admitted = [] ∧ current = rl ∧ now₀ = now ∧ ¬now < rl.blockedUntil
  | .tryExchange now₀ tat =>
    admitted = [] ∧ current = rl ∧ now₀ = now ∧ tat = rl.tat ∧ ¬now < rl.blockedUntil
  | _ => False

/-- What is left of an `acquire` that began at `now`, when the clock stands at `clock`. -/
def Pc.Acquiring (rl : RateLimiter) (now : ℕ) (current : RateLimiter) (clock : ℕ) : Pc → Prop
  | .idle => (clock, current) = rl.acquire now
  | .acquireBarrier => current = rl ∧ rl.acquire clock = rl.acquire now
  | .acquireClock blockedUntil =>
    current = rl ∧ rl.acquire clock = rl.acquire now ∧ blockedUntil = rl.blockedUntil
  | .acquireBlocked now₀ ns =>
    current = rl ∧ rl.acquire now₀ = rl.acquire now ∧ now₀ < rl.blockedUntil ∧
      ns = rl.blockedUntil - now₀
  | .acquireTat => current = rl ∧ rl.acquire clock = rl.acquire now ∧ ¬clock < rl.blockedUntil
  | .acquireNow tat =>
    current = rl ∧ rl.acquire clock = rl.acquire now ∧ ¬clock < rl.blockedUntil ∧ tat = rl.tat
  | .acquireExchange tat now₀ =>
    current = rl ∧ rl.acquire clock = rl.acquire now ∧ ¬clock < rl.blockedUntil ∧ tat = rl.tat ∧
      now₀ = clock
  | .acquireSleep now₀ ns => (now₀ + ns, current) = rl.acquire now
  | _ => False

/-- One access of a lone `try_acquire`. -/
theorem Pc.Trying.step {admitted : List (Arrival ℕ)} {lucky : Bool} (henabled : rl.intervalNs ≠ 0)
    (hpc : (s.state.threads i).Trying rl now s.state.limiter admitted) {pc : Pc}
    (h : s.state.limiter.advance now lucky (s.state.threads i) = some (t.state.limiter, pc)) :
    pc.Trying rl now t.state.limiter (admitted ++ (admission s.state (.go i now lucky)).toList) := by
  rw [admission]
  revert hpc h
  cases s.state.threads i <;> intro hpc h <;>
    simp only [RateLimiter.advance, Option.some.injEq, Prod.mk.injEq, reduceCtorEq] at h
  case tryClock =>
    obtain ⟨rfl, hrl⟩ := hpc
    obtain ⟨hlimiter, rfl⟩ := h
    exact ⟨rfl, hlimiter ▸ hrl, rfl⟩
  case tryBarrier now₀ =>
    obtain ⟨rfl, rfl, rfl⟩ := hpc
    obtain ⟨hlimiter, rfl⟩ := h
    dsimp only
    rw [← hlimiter]
    split
    case isTrue hlt =>
      show (false, s.state.limiter) = s.state.limiter.tryAcquire now₀
      rw [tryAcquire, if_neg henabled, if_pos hlt]
    case isFalse hlt => exact ⟨rfl, rfl, rfl, hlt⟩
  case tryTat now₀ =>
    obtain ⟨rfl, rfl, rfl, hlt⟩ := hpc
    obtain ⟨hlimiter, rfl⟩ := h
    exact ⟨rfl, hlimiter.symm, rfl, rfl, hlt⟩
  case tryExchange now₀ tat =>
    obtain ⟨rfl, rfl, rfl, rfl, hlt⟩ := hpc
    dsimp only
    split_ifs at h ⊢ with hfull hlucky <;> obtain ⟨hlimiter, rfl⟩ := Prod.mk.inj (Option.some.inj h) <;>
      rw [← hlimiter]
    · show (false, s.state.limiter) = s.state.limiter.tryAcquire now₀
      rw [tryAcquire, if_neg henabled, if_neg hlt, if_pos hfull]
    · show (true, _) = s.state.limiter.tryAcquire now₀
      rw [tryAcquire, if_neg henabled, if_neg hlt, if_neg hfull]
    · exact ⟨rfl, rfl, rfl, rfl, hlt⟩
  all_goals exact hpc.elim

/-- One access of a lone `acquire`. A sleep moves the clock, and nothing else does. -/
theorem Pc.Acquiring.advance (henabled : rl.intervalNs ≠ 0) {pc pc' : Pc} {rl' : RateLimiter}
    {clock' : ℕ} {lucky : Bool} (hpc : pc.Acquiring rl now current clock)
    (hclock : clock' = pc.next clock)
    (h : current.advance clock' lucky pc = some (rl', pc')) : pc'.Acquiring rl now rl' clock' := by
  cases pc <;> simp only [RateLimiter.advance, Option.some.injEq, Prod.mk.injEq, reduceCtorEq] at h
  case acquireBarrier =>
    obtain ⟨rfl, hacquire⟩ := hpc
    obtain ⟨rfl, rfl⟩ := h
    exact ⟨rfl, hclock ▸ hacquire, rfl⟩
  case acquireClock blockedUntil =>
    obtain ⟨rfl, hacquire, rfl⟩ := hpc
    obtain rfl : clock' = clock := hclock
    obtain ⟨rfl, rfl⟩ := h
    split
    case isTrue hlt => exact ⟨rfl, hacquire, hlt, rfl⟩
    case isFalse hlt => exact ⟨rfl, hacquire, hlt⟩
  -- the barrier was up: it is waited out, and the call starts again
  case acquireBlocked now₀ ns =>
    obtain ⟨rfl, hacquire, hlt, rfl⟩ := hpc
    obtain rfl : clock' = now₀ + (current.blockedUntil - now₀) := hclock
    obtain ⟨rfl, rfl⟩ := h
    refine ⟨rfl, ?_⟩
    rw [← hacquire, acquire.eq_1 current now₀, if_neg henabled, if_pos hlt]
  case acquireTat =>
    obtain ⟨rfl, hacquire, hlt⟩ := hpc
    obtain rfl : clock' = clock := hclock
    obtain ⟨rfl, rfl⟩ := h
    exact ⟨rfl, hacquire, hlt, rfl⟩
  case acquireNow tat =>
    obtain ⟨rfl, hacquire, hlt, rfl⟩ := hpc
    obtain rfl : clock' = clock := hclock
    obtain ⟨rfl, rfl⟩ := h
    exact ⟨rfl, hacquire, hlt, rfl, rfl⟩
  case acquireExchange tat now₀ =>
    obtain ⟨rfl, hacquire, hlt, rfl, rfl⟩ := hpc
    obtain rfl : clock' = now₀ := hclock
    rw [acquire, if_neg henabled, if_neg hlt] at hacquire
    split_ifs at h with hlucky hsleep <;> obtain ⟨rfl, rfl⟩ := Prod.mk.inj (Option.some.inj h)
    · exact hacquire
    · show (clock', _) = _
      rw [← hacquire, not_not.1 hsleep, Nat.add_zero]
    · -- a spurious failure: nobody has moved `tat_`, so the next round books the same slot
      exact ⟨rfl, by rw [acquire, if_neg henabled, if_neg hlt, hacquire], hlt, rfl⟩
  case acquireSleep now₀ ns =>
    obtain rfl : clock' = now₀ + ns := hclock
    obtain ⟨rfl, rfl⟩ := h
    exact hpc
  all_goals exact hpc.elim

/-- One step of a lone thread, as the access of that thread. -/
theorem lone_step (hlone : Lone i s a) (h : clocked.step s a = some t) :
    ∃ lucky, a = .go i t.now lucky ∧ t.now = (s.state.threads i).next s.now ∧
      s.state.limiter.advance t.now lucky (s.state.threads i) =
        some (t.state.limiter, t.state.threads i) := by
  obtain ⟨j, c, rfl, -, -, -⟩ | ⟨j, lucky, pc, rfl, -, hadv, hthreads⟩ := clocked_step_cases h
  · exact hlone.elim
  · obtain ⟨rfl, hnow⟩ := hlone
    exact ⟨lucky, rfl, hnow, by rw [hadv, hthreads, Function.update_self]⟩

/-- Outside the limiter a thread makes no step. -/
theorem eq_of_idle (hidle : s.state.threads i = .idle) (h : clocked.RunsUnder (Lone i) s as u) : u = s := by
  rcases as with - | ⟨a, as⟩
  · exact h.symm
  · obtain ⟨hlone, t, hstep, -⟩ := h
    obtain ⟨lucky, -, -, hadv⟩ := lone_step hlone hstep
    rw [hidle] at hadv
    cases hadv

/-- **A lone `try_acquire`** succeeds when `tryAcquire` says and leaves what it says, whatever exchanges
fail on the way. -/
theorem tryAcquire_of_lone (henabled : s.state.limiter.intervalNs ≠ 0)
    (h : LoneCall s i .tryAcquire as u) :
    (decide (admissions (entered s i .tryAcquire) as ≠ []), u.state.limiter) =
      s.state.limiter.tryAcquire s.now := by
  have htrying : u.now = s.now ∧ (u.state.threads i).Trying s.state.limiter s.now u.state.limiter
      ([] ++ admissions (entered s i .tryAcquire) as) := by
    refine h.run.invariant_trace (P := fun v log ↦ v.now = s.now ∧
      (v.state.threads i).Trying s.state.limiter s.now v.state.limiter log) ?_ ?_
    · rintro v a w log ⟨hnow, hpc⟩ hlone hstep
      obtain ⟨lucky, rfl, htime, hadv⟩ := lone_step hlone hstep
      have hkept : w.now = s.now := by
        revert htime hpc
        cases v.state.threads i <;> intro hpc htime
        case acquireBlocked | acquireSleep => exact hpc.elim
        all_goals exact htime.trans hnow
      rw [hkept] at hadv ⊢
      exact ⟨rfl, hpc.step henabled hadv⟩
    · refine ⟨rfl, ?_⟩
      simp [entered, enter, henabled, Pc.Trying]
  have hend := htrying.2
  rwa [h.returned] at hend

/-- **A lone `acquire`** returns when `acquire` says, and leaves what it says. -/
theorem acquire_of_lone (h : LoneCall s i .acquire as u) :
    (u.now, u.state.limiter) = s.state.limiter.acquire s.now := by
  by_cases henabled : s.state.limiter.intervalNs = 0
  · rw [eq_of_idle (by simp [entered, enter, henabled]) h.run, entered, acquire, if_pos henabled]
  · have hacquiring :
        (u.state.threads i).Acquiring s.state.limiter s.now u.state.limiter u.now := by
      refine h.run.invariant (P := fun v : Timed State ↦
        (v.state.threads i).Acquiring s.state.limiter s.now v.state.limiter v.now) ?_ ?_
      · intro v a w hpc hlone hstep
        obtain ⟨lucky, -, htime, hadv⟩ := lone_step hlone hstep
        exact hpc.advance henabled htime hadv
      · simp [entered, enter, henabled, Pc.Acquiring]
    rwa [h.returned] at hacquiring

end RateLimiter

end Alpaca
