import AlpacaCpp.Foundation.Machine
import AlpacaCpp.Foundation.Pacing
import AlpacaCpp.Foundation.Words
import Mathlib.Logic.Function.Basic

/-!
# `rate_limiter`: the atomics and the threads that race on them

`rate_limiter` (`core/src/rate_limiter.cpp`) keeps its whole state in five atomics and no mutex. Two
of them move while a limiter is in use, the theoretical arrival time `tat_` and the 429 barrier
`blocked_until_`; the rate, the interval and the burst window are written only by construction and
by `set_rate`.

A run is a list of labels over any number of threads. One label is one atomic access: a load, a
clock reading, a compare-exchange. Everything a thread computes in between is local and is folded
into the access that follows it. The label supplies the value the clock returns and whether a weak
compare-exchange may succeed at all, so stale readings and spurious failures are ordinary runs.

A thread is where it is in the code, with the local variables that are still needed there (`Pc`). The names of
the positions say which function and which access comes next:

* `tryClock`, `tryBarrier`, `tryTat`, `tryExchange` for `try_acquire`;
* `acquireBarrier` to `acquireSleep` for `acquire`, with its two sleeps as accesses of their own;
* `notifyClock`, `notifyLoad`, `notifyExchange` for `notify_rate_limited`.

In a disabled limiter the acquiring functions return at once, without an access. What counts as an
**admission** is the successful exchange of `tat_`: at the reading the caller tested, or for the time its
sleep will end.

The arithmetic is the source's: every sum is reduced to 64 bits. `NoWrap` is the side condition
that none of the sums of a step exceeds the word, for the results that assume it.
-/

namespace Alpaca

/-- The atomics of `rate_limiter`. -/
structure RateLimiter where
  /-- `rate_` -/
  rate : ℕ
  /-- `interval_ns_`: nanoseconds between two sustained requests. -/
  intervalNs : ℕ
  /-- `burst_ns_`: how far ahead of the clock the arrival time may run. -/
  burstNs : ℕ
  /-- `tat_`: theoretical arrival time of the next admitted request. -/
  tat : ℕ
  /-- `blocked_until_`: hard barrier set by a server-side 429. -/
  blockedUntil : ℕ
  deriving DecidableEq

namespace RateLimiter

/-! ### Construction -/

def nanosPerMinute : ℕ := 60000000000

/-- `compute_interval` -/
def computeInterval (requestsPerMinute : UInt32) : ℕ :=
  if requestsPerMinute = 0 then 0 else nanosPerMinute / requestsPerMinute.toNat

/-- `burst != 0 ? burst : requests_per_minute`, as the constructor and `set_rate` compute it. -/
def effectiveBurst (requestsPerMinute burst : UInt32) : ℕ :=
  if burst ≠ 0 then burst.toNat else requestsPerMinute.toNat

/-- `rate_limiter(requests_per_minute, burst)` -/
def new (requestsPerMinute burst : UInt32) : RateLimiter where
  rate := requestsPerMinute.toNat
  intervalNs := computeInterval requestsPerMinute
  burstNs := u64 (computeInterval requestsPerMinute * effectiveBurst requestsPerMinute burst)
  tat := 0
  blockedUntil := 0

/-- `set_rate`: a new rate starts with a fresh budget, and the barrier stays. -/
def setRate (rl : RateLimiter) (requestsPerMinute burst : UInt32) : RateLimiter :=
  { new requestsPerMinute burst with blockedUntil := rl.blockedUntil }

/-! ### The bucket arithmetic -/

/-- `std::max(tat, now) + interval` -/
def newTat (rl : RateLimiter) (tat now : ℕ) : ℕ :=
  u64 (max tat now + rl.intervalNs)

/-- `new_tat > burst ? new_tat - burst : 0` -/
def due (rl : RateLimiter) (newTat : ℕ) : ℕ :=
  if newTat > rl.burstNs then newTat - rl.burstNs else 0

/-- `due > now ? due - now : 0` -/
def sleepNs (due now : ℕ) : ℕ :=
  if due > now then due - now else 0

/-! ### Threads -/

/-- Where a thread stands inside a member function, with the locals it still needs. Each
constructor names the atomic access the thread performs next. -/
inductive Pc where
  /-- Outside the limiter. -/
  | idle
  /-- `try_acquire`: about to read the clock. -/
  | tryClock
  /-- `try_acquire`: about to load `blocked_until_`. -/
  | tryBarrier (now : ℕ)
  /-- `try_acquire`: about to load `tat_`. -/
  | tryTat (now : ℕ)
  /-- `try_acquire`: holds a value of `tat_`, about to test it and compare-exchange. -/
  | tryExchange (now tat : ℕ)
  /-- `acquire`: about to load `blocked_until_`. -/
  | acquireBarrier
  /-- `acquire`: about to read the clock for the barrier test. -/
  | acquireClock (blockedUntil : ℕ)
  /-- `acquire`: sleeping out the barrier, for `ns` from the reading `now`. -/
  | acquireBlocked (now ns : ℕ)
  /-- `acquire`: about to load `tat_`. -/
  | acquireTat
  /-- `acquire`: holds a value of `tat_`, about to read the clock for this attempt. -/
  | acquireNow (tat : ℕ)
  /-- `acquire`: about to compare-exchange. -/
  | acquireExchange (tat now : ℕ)
  /-- `acquire`: slot reserved, sleeping for `ns` from the reading `now`. -/
  | acquireSleep (now ns : ℕ)
  /-- `notify_rate_limited`: about to read the clock. -/
  | notifyClock (retryAfterSeconds : UInt32)
  /-- `notify_rate_limited`: about to load `blocked_until_`. -/
  | notifyLoad (untilNs : ℕ)
  /-- `notify_rate_limited`: in the loop, about to compare-exchange. -/
  | notifyExchange (untilNs current : ℕ)
  deriving DecidableEq

/-- The member functions a thread may call. -/
inductive Call where
  | tryAcquire
  | acquire
  | notifyRateLimited (retryAfterSeconds : UInt32)
  deriving DecidableEq

/-- Entering a member function. A disabled limiter returns from both acquiring functions at once. -/
def enter (rl : RateLimiter) : Call → Pc
  | .tryAcquire => if rl.intervalNs = 0 then .idle else .tryClock
  | .acquire => if rl.intervalNs = 0 then .idle else .acquireBarrier
  | .notifyRateLimited r => .notifyClock r

/-- The loop test `until > current` of `notify_rate_limited`. -/
def notifyTest (untilNs current : ℕ) : Pc :=
  if untilNs > current then .notifyExchange untilNs current else .idle

/-- The next atomic access of a thread. `now` is what the clock returns if it is read, `lucky`
whether a weak compare-exchange that finds the expected value goes through. A failed exchange
reloads the expected value. -/
def advance (rl : RateLimiter) (now : ℕ) (lucky : Bool) : Pc → Option (RateLimiter × Pc)
  | .idle => none
  | .tryClock => some (rl, .tryBarrier now)
  | .tryBarrier now₀ => some (rl, if now₀ < rl.blockedUntil then .idle else .tryTat now₀)
  | .tryTat now₀ => some (rl, .tryExchange now₀ rl.tat)
  | .tryExchange now₀ tat =>
    if rl.newTat tat now₀ > u64 (now₀ + rl.burstNs) then some (rl, .idle)
    else if rl.tat = tat ∧ lucky then some ({ rl with tat := rl.newTat tat now₀ }, .idle)
    else some (rl, .tryExchange now₀ rl.tat)
  | .acquireBarrier => some (rl, .acquireClock rl.blockedUntil)
  | .acquireClock blockedUntil =>
    some (rl, if now < blockedUntil then .acquireBlocked now (blockedUntil - now) else .acquireTat)
  | .acquireBlocked _ _ => some (rl, .acquireBarrier)
  | .acquireTat => some (rl, .acquireNow rl.tat)
  | .acquireNow tat => some (rl, .acquireExchange tat now)
  | .acquireExchange tat now₀ =>
    if rl.tat = tat ∧ lucky then
      let ns := sleepNs (rl.due (rl.newTat tat now₀)) now₀
      some ({ rl with tat := rl.newTat tat now₀ },
        if ns ≠ 0 then .acquireSleep now₀ ns else .idle)
    else some (rl, .acquireNow rl.tat)
  | .acquireSleep _ _ => some (rl, .idle)
  | .notifyClock r => some (rl, .notifyLoad (u64 (now + r.toNat * 1000000000)))
  | .notifyLoad untilNs => some (rl, notifyTest untilNs rl.blockedUntil)
  | .notifyExchange untilNs current =>
    if rl.blockedUntil = current ∧ lucky then some ({ rl with blockedUntil := untilNs }, .idle)
    else some (rl, notifyTest untilNs rl.blockedUntil)

/-- The shared limiter and the position of every thread. -/
structure State where
  limiter : RateLimiter
  threads : ℕ → Pc

/-- One label: a thread enters a member function, or performs its next atomic access. -/
inductive Action where
  | call (thread : ℕ) (c : Call)
  | go (thread : ℕ) (now : ℕ) (lucky : Bool)
  deriving DecidableEq

/-- A step of the machine. A thread calls only from outside the limiter. -/
def step (s : State) : Action → Option State
  | .call i c =>
    if s.threads i = .idle then
      some { s with threads := Function.update s.threads i (s.limiter.enter c) }
    else none
  | .go i now lucky =>
    (s.limiter.advance now lucky (s.threads i)).map fun p ↦
      { limiter := p.1, threads := Function.update s.threads i p.2 }

/-- The limiter as a labelled machine. -/
def machine : Machine State Action := ⟨step⟩

/-- A limiter nobody is using yet. -/
def start (rl : RateLimiter) : State := ⟨rl, fun _ ↦ .idle⟩

/-! ### Admissions -/

/-- The admission a step performs, if any: the time the request is let through together with the
arrival time it is charged. A successful `try_acquire` is admitted at the clock reading it tested;
an `acquire` at the later of its reading and the instant its reserved slot comes due. -/
def admission (s : State) : Action → Option (Arrival ℕ)
  | .call _ _ => none
  | .go i _ lucky =>
    match s.threads i with
    | .tryExchange now₀ tat =>
      if s.limiter.newTat tat now₀ > u64 (now₀ + s.limiter.burstNs) then none
      else if s.limiter.tat = tat ∧ lucky then some ⟨now₀, s.limiter.newTat tat now₀⟩
      else none
    | .acquireExchange tat now₀ =>
      if s.limiter.tat = tat ∧ lucky then
        some ⟨max now₀ (s.limiter.due (s.limiter.newTat tat now₀)), s.limiter.newTat tat now₀⟩
      else none
    | _ => none

/-- None of the sums the next access of a thread computes exceeds 64 bits. -/
def Fits (rl : RateLimiter) (now : ℕ) : Pc → Prop
  | .tryExchange now₀ tat =>
    max tat now₀ + rl.intervalNs < 2 ^ 64 ∧ now₀ + rl.burstNs < 2 ^ 64
  | .acquireExchange tat now₀ => max tat now₀ + rl.intervalNs < 2 ^ 64
  | .notifyClock r => now + r.toNat * 1000000000 < 2 ^ 64
  | _ => True

instance (rl : RateLimiter) (now : ℕ) : DecidablePred (rl.Fits now)
  | .tryExchange _ _ => inferInstanceAs (Decidable (_ ∧ _))
  | .acquireExchange _ _ => inferInstanceAs (Decidable (_ < _))
  | .notifyClock _ => inferInstanceAs (Decidable (_ < _))
  | .idle | .tryClock | .tryBarrier _ | .tryTat _ | .acquireBarrier | .acquireClock _
  | .acquireBlocked _ _ | .acquireTat | .acquireNow _ | .acquireSleep _ _ | .notifyLoad _
  | .notifyExchange _ _ => isTrue trivial

/-- None of the sums of the step exceeds 64 bits. -/
def NoWrap (s : State) : Action → Prop
  | .call _ _ => True
  | .go i now _ => s.limiter.Fits now (s.threads i)

instance (s : State) : DecidablePred (NoWrap s)
  | .call _ _ => isTrue trivial
  | .go i now _ => inferInstanceAs (Decidable (s.limiter.Fits now (s.threads i)))

end RateLimiter

end Alpaca
