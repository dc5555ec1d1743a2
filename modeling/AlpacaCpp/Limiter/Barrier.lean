import AlpacaCpp.Limiter.AdmissionWindow

/-!
# The barrier a 429 raises

`notify_rate_limited` pushes `blocked_until_` out and every acquiring call tests it, but `acquire`
tests it once, reserves its slot and then sleeps without looking again. So the barrier is hard for
the calls that have yet to load it, and for those only (`le_now_of_admits`), and it stands
`retry_after_seconds` after the clock reading the notification started with, not after its return.
`admitsEarly_of_sleeping_of_slow` shows that neither restriction can go.

Every atomic access happens at the time its label carries, and the times of a run never go back
(`Machine.timed`).

Three invariants of a thread do the work, each of them a condition on its position:

* `Pc.Sound`: a clock reading it holds is not in the future, and a notification that is about to exchange
  holds a barrier that is further out than the one it has loaded. So the barrier never comes back, which
  is all that is needed of the other threads;
* `Pc.Raising`: a notification still carries its value to the exchange, or the barrier has it already;
* `Pc.Behind`: a thread that has loaded the barrier has loaded one that is up, and it is past the test
  only if the clock has got there.

Each is preserved by one access (`advance_sound`, `Pc.Raising.advance`, `Pc.Behind.advance`), and then by
a step of the machine, in which one thread moves and the others wait while time goes on.
-/

namespace Alpaca

namespace RateLimiter

open Machine

/-- Every access to an atomic happens at the time the clock would return. -/
def Action.time? : Action → Option ℕ
  | .call _ _ => none
  | .go _ now _ => some now

def Action.thread : Action → ℕ
  | .call i _ => i
  | .go i _ _ => i

/-- The limiter, its threads and a monotone clock. -/
def clocked : Machine (Timed State) Action := machine.timed Action.time?

/-- A step that returns from `acquire`, or from `try_acquire` with `true`. A disabled limiter returns
from the call itself. -/
def Admits (s : State) : Action → Prop
  | .call _ c => s.limiter.intervalNs = 0 ∧ (c = .acquire ∨ c = .tryAcquire)
  | .go i _ lucky =>
    match s.threads i with
    | .tryExchange now₀ tat =>
      s.limiter.newTat tat now₀ ≤ u64 (now₀ + s.limiter.burstNs) ∧ s.limiter.tat = tat ∧ lucky
    | .acquireExchange tat now₀ =>
      s.limiter.tat = tat ∧ lucky ∧ sleepNs (s.limiter.due (s.limiter.newTat tat now₀)) now₀ = 0
    | .acquireSleep _ _ => True
    | _ => False

instance (s : State) : DecidablePred (Admits s)
  | .call _ _ => inferInstanceAs (Decidable (_ ∧ _))
  | .go i now _ => by
    rw [Admits]
    split <;> infer_instance

/-- A sleep lasts at least as long as it was asked to. -/
def SleepsOut (s : Timed State) : Action → Prop
  | .call _ _ => True
  | .go i now _ =>
    match s.state.threads i with
    | .acquireBlocked now₀ ns | .acquireSleep now₀ ns => now₀ + ns ≤ now
    | _ => True

instance (s : Timed State) : DecidablePred (SleepsOut s)
  | .call _ _ => isTrue trivial
  | .go i now _ => by
    rw [SleepsOut]
    split <;> infer_instance

/-- A whole call of `notify_rate_limited(r)` by the thread `i`, the other threads running in between.
It starts with the clock reading `t` and returns at the time of its last access. -/
structure Notifies (s : Timed State) (i : ℕ) (r : UInt32) (t : ℕ) (as : List Action)
    (u : Timed State) : Prop where
  entered : s.state.threads i = .notifyClock r
  reading : ∃ lucky bs, as = .go i t lucky :: bs
  calls : ∀ c, .call i c ∉ as
  run : clocked.run s as = some u
  returned : u.state.threads i = .idle
  last : ∃ bs lucky, as = bs ++ [.go i u.now lucky]

/-- The load of `blocked_until_` an acquiring call makes last is still ahead of the thread. -/
def Pc.BeforeBarrier : Pc → Prop
  | .idle | .tryClock | .tryBarrier _ | .acquireBarrier | .acquireBlocked _ _ | .notifyClock _
  | .notifyLoad _ | .notifyExchange _ _ => True
  | .tryTat _ | .tryExchange _ _ | .acquireClock _ | .acquireTat | .acquireNow _
  | .acquireExchange _ _ | .acquireSleep _ _ => False

/-! ### What holds of every thread

Soundness is the part of the invariant that has nothing to do with a particular notification. It says that
local clock readings are old, and it makes the barrier monotone. -/

/-- A reading a thread holds is in the past, and a barrier it is about to store is a later one. -/
def Pc.Sound (clock : ℕ) : Pc → Prop
  | .tryBarrier now₀ => now₀ ≤ clock
  | .notifyExchange untilNs current => current < untilNs
  | _ => True

variable {rl rl' : RateLimiter} {now clock bound : ℕ} {lucky : Bool} {pc pc' : Pc}
  {s t u : Timed State} {a : Action} {as : List Action} {i j : ℕ}

theorem Pc.Sound.mono (h : pc.Sound clock) (hle : clock ≤ now) : pc.Sound now := by
  cases pc
  case tryBarrier now₀ => exact Nat.le_trans h hle
  all_goals exact h

theorem enter_sound (c : Call) : (rl.enter c).Sound clock := by
  cases c
  case notifyRateLimited r => trivial
  all_goals rw [enter]; split <;> trivial

/-- An exchange of the barrier comes behind a test that it goes up. -/
theorem notifyTest_sound (untilNs current : ℕ) : (notifyTest untilNs current).Sound clock := by
  rw [notifyTest]
  split
  case isTrue h => exact h
  case isFalse => trivial

/-- **One access keeps a thread sound.** -/
theorem advance_sound (h : rl.advance now lucky pc = some (rl', pc')) : pc'.Sound now := by
  cases pc <;> simp only [advance, Option.some.injEq, Prod.mk.injEq, reduceCtorEq] at h
  case tryClock => exact h.2 ▸ le_rfl
  case notifyLoad untilNs => exact h.2 ▸ notifyTest_sound _ _
  case notifyExchange untilNs current =>
    split_ifs at h <;> obtain ⟨-, rfl⟩ := Prod.mk.inj (Option.some.inj h)
    · trivial
    · exact notifyTest_sound _ _
  case tryBarrier now₀ =>
    rw [← h.2]
    split <;> trivial
  case acquireClock blockedUntil =>
    rw [← h.2]
    split <;> trivial
  case tryExchange | acquireExchange =>
    split_ifs at h <;> obtain ⟨-, rfl⟩ := Prod.mk.inj (Option.some.inj h) <;> trivial
  all_goals rw [← h.2]; trivial

/-- **Only ever push the barrier further out.** -/
theorem blockedUntil_le_of_advance (hpc : pc.Sound clock)
    (h : rl.advance now lucky pc = some (rl', pc')) : rl.blockedUntil ≤ rl'.blockedUntil := by
  cases pc <;> simp only [advance, Option.some.injEq, Prod.mk.injEq, reduceCtorEq] at h
  case notifyExchange untilNs current =>
    split_ifs at h with hcas <;> obtain ⟨rfl, -⟩ := Prod.mk.inj (Option.some.inj h)
    · rw [hcas.1]
      exact Nat.le_of_lt hpc
    · exact le_rfl
  case tryExchange | acquireExchange =>
    split_ifs at h <;> obtain ⟨rfl, -⟩ := Prod.mk.inj (Option.some.inj h) <;> exact le_rfl
  all_goals exact h.1 ▸ le_rfl

/-- What one label does, the clock included. -/
theorem clocked_step_cases (h : clocked.step s a = some t) :
    (∃ i c, a = .call i c ∧ t.now = s.now ∧ t.state.limiter = s.state.limiter ∧
      t.state.threads = Function.update s.state.threads i (s.state.limiter.enter c)) ∨
    ∃ i lucky pc, a = .go i t.now lucky ∧ s.now ≤ t.now ∧
      s.state.limiter.advance t.now lucky (s.state.threads i) = some (t.state.limiter, pc) ∧
      t.state.threads = Function.update s.state.threads i pc := by
  obtain ⟨hstep, hnow, hle⟩ := timed_step_eq_some.1 h
  cases a with
  | call i c =>
    simp only [machine, step, Option.ite_none_right_eq_some, Option.some.injEq] at hstep
    obtain ⟨-, ht⟩ := hstep
    exact .inl ⟨i, c, rfl, hnow, ht ▸ rfl, ht ▸ rfl⟩
  | go i now lucky =>
    obtain ⟨⟨rl, pc⟩, hadv, ht⟩ := Option.map_eq_some_iff.1 hstep
    obtain rfl : t.now = now := hnow
    rw [← ht]
    exact .inr ⟨i, lucky, pc, rfl, hle, hadv, rfl⟩

/-- The invariant of every run: the limiter stays enabled and every thread is sound. -/
structure Sound (s : Timed State) : Prop where
  enabled : s.state.limiter.intervalNs ≠ 0
  threads : ∀ i, (s.state.threads i).Sound s.now

/-- A step of any thread keeps all of them sound. -/
theorem Sound.step (hs : Sound s) (h : clocked.step s a = some t) : Sound t := by
  constructor
  · rw [(step_params (timed_step_eq_some.1 h).1).1]
    exact hs.enabled
  · intro j
    obtain ⟨i, c, -, hnow, -, hthreads⟩ | ⟨i, lucky, pc, -, hle, hadv, hthreads⟩ :=
      clocked_step_cases h
    · rw [hthreads, hnow, Function.update_apply]
      split
      · exact enter_sound c
      · exact hs.threads j
    · rw [hthreads, Function.update_apply]
      split
      · exact advance_sound hadv
      · exact (hs.threads j).mono hle

/-! ### The notification

A notification is followed from its call to its return. Whatever the others do in between, its value is in
its hand or has been reached by the barrier. -/

/-- The barrier never comes back. -/
theorem blockedUntil_le_of_step (hs : Sound s) (h : clocked.step s a = some t) :
    s.state.limiter.blockedUntil ≤ t.state.limiter.blockedUntil := by
  obtain ⟨i, c, -, -, hlimiter, -⟩ | ⟨i, lucky, pc, -, -, hadv, -⟩ := clocked_step_cases h
  · exact Nat.le_of_eq (congrArg _ hlimiter.symm)
  · exact blockedUntil_le_of_advance (hs.threads i) hadv

/-- Where a notifying thread stands between its clock reading and its return: it still carries the
barrier, or the barrier is up. -/
def Pc.Raising (bound blockedUntil : ℕ) : Pc → Prop
  | .notifyLoad untilNs | .notifyExchange untilNs _ => untilNs = bound
  | .idle => bound ≤ blockedUntil
  | _ => False

/-- The test sends a notification to its exchange, or the barrier is far enough out. -/
theorem notifyTest_raising (untilNs current : ℕ) : (notifyTest untilNs current).Raising untilNs current := by
  rw [notifyTest]
  split
  case isTrue => rfl
  case isFalse h => exact Nat.le_of_not_lt h

/-- **A notification drops nothing on its way.** -/
theorem Pc.Raising.advance (hpc : pc.Raising bound rl.blockedUntil)
    (h : rl.advance now lucky pc = some (rl', pc')) : pc'.Raising bound rl'.blockedUntil := by
  cases pc
  case notifyLoad untilNs =>
    obtain ⟨rfl, rfl⟩ := Prod.mk.inj (Option.some.inj h)
    exact hpc ▸ notifyTest_raising _ _
  case notifyExchange untilNs current =>
    rw [RateLimiter.advance] at h
    split_ifs at h <;> obtain ⟨rfl, rfl⟩ := Prod.mk.inj (Option.some.inj h)
    · exact Nat.le_of_eq hpc.symm
    · exact hpc ▸ notifyTest_raising _ _
  case idle => cases h
  all_goals exact hpc.elim

/-- Others that push the barrier out do no harm. -/
theorem Pc.Raising.mono {blockedUntil blockedUntil' : ℕ} (hpc : pc.Raising bound blockedUntil)
    (hle : blockedUntil ≤ blockedUntil') : pc.Raising bound blockedUntil' := by
  cases pc
  case idle => exact Nat.le_trans hpc hle
  all_goals exact hpc

/-- The steps of all threads keep what a notification carries. -/
theorem raising_of_step (hs : Sound s)
    (hraise : (s.state.threads i).Raising bound s.state.limiter.blockedUntil)
    (hcall : ∀ c, a ≠ .call i c) (h : clocked.step s a = some t) :
    (t.state.threads i).Raising bound t.state.limiter.blockedUntil := by
  have hkept := hraise.mono (blockedUntil_le_of_step hs h)
  obtain ⟨k, c, rfl, -, -, hthreads⟩ | ⟨k, lucky, pc, -, -, hadv, hthreads⟩ := clocked_step_cases h
  · have hne : i ≠ k := by
      rintro rfl
      exact hcall c rfl
    rw [hthreads, Function.update_of_ne hne]
    exact hkept
  · rw [hthreads, Function.update_apply]
    split
    case isTrue heq => exact hraise.advance (heq ▸ hadv)
    case isFalse => exact hkept

theorem Sound.run (hs : Sound s) (h : clocked.run s as = some u) : Sound u :=
  (runsUnder_true_iff.2 h).invariant (fun _ _ _ hs _ hstep ↦ hs.step hstep) hs

/-- A notification that has returned has the barrier up. The clock is a signed count, so neither the
reading nor the sum leaves the word. -/
theorem Notifies.le_blockedUntil {r : UInt32} (h : Notifies s i r clock as u) (hs : Sound s)
    (hclock : clock < 2 ^ 63) : clock + r.toNat * 1000000000 ≤ u.state.limiter.blockedUntil := by
  obtain ⟨lucky, bs, rfl⟩ := h.reading
  obtain ⟨v, hfirst, hrest⟩ := Option.bind_eq_some_iff.1 h.run
  -- The first access leaves the thread with the barrier in hand.
  have hfit : u64 (clock + r.toNat * 1000000000) = clock + r.toNat * 1000000000 :=
    u64_of_lt (by have := r.toNat_lt; omega)
  have hv : (v.state.threads i).Raising (clock + r.toNat * 1000000000) v.state.limiter.blockedUntil := by
    obtain ⟨k, c, heq, -⟩ | ⟨k, lucky', pc, heq, -, hadv, hthreads⟩ := clocked_step_cases hfirst
    · cases heq
    · obtain ⟨rfl, rfl, rfl⟩ := Action.go.inj heq
      rw [h.entered] at hadv
      obtain ⟨-, rfl⟩ := Prod.mk.inj (Option.some.inj hadv)
      rw [hthreads, Function.update_self, hfit]
      rfl
  have hcalls : ∀ a ∈ bs, ∀ c, a ≠ .call i c := fun a ha c heq ↦
    h.calls c (List.mem_cons_of_mem _ (heq ▸ ha))
  obtain ⟨-, hu⟩ := ((runsUnder_true_iff.2 hrest).and_forall hcalls).invariant
    (P := fun s ↦ Sound s ∧ (s.state.threads i).Raising (clock + r.toNat * 1000000000)
      s.state.limiter.blockedUntil)
    (fun _ _ _ hs hC hstep ↦ ⟨hs.1.step hstep, raising_of_step hs.1 hs.2 hC.2 hstep⟩)
    ⟨hs.step hfirst, hv⟩
  rwa [h.returned] at hu

/-! ### The calls that have yet to load the barrier

They load a barrier that is up, and their test sends them to sleep until the clock has passed it. That a
sleep lasts as long as it should is asked of the run. -/

/-- Behind a barrier: once a thread has loaded it, it goes on no earlier. -/
def Pc.Behind (bound clock : ℕ) : Pc → Prop
  | .acquireClock blockedUntil => bound ≤ blockedUntil
  | .tryTat _ | .tryExchange _ _ | .acquireTat | .acquireNow _ | .acquireExchange _ _
  | .acquireSleep _ _ => bound ≤ clock
  | _ => True

/-- A thread that has yet to load the barrier holds nothing that could let it through. -/
theorem Pc.BeforeBarrier.behind (h : pc.BeforeBarrier) : pc.Behind bound clock := by
  cases pc
  case tryTat | tryExchange | acquireClock | acquireTat | acquireNow | acquireExchange
    | acquireSleep => exact h.elim
  all_goals trivial

/-- Waiting does not let a thread through. -/
theorem Pc.Behind.mono (h : pc.Behind bound clock) (hle : clock ≤ now) : pc.Behind bound now := by
  cases pc
  case tryTat | tryExchange | acquireTat | acquireNow | acquireExchange | acquireSleep =>
    exact Nat.le_trans h hle
  all_goals exact h

theorem enter_behind (c : Call) : (rl.enter c).Behind bound clock := by
  cases c
  case notifyRateLimited r => trivial
  all_goals rw [enter]; split <;> trivial

theorem notifyTest_behind (untilNs current : ℕ) : (notifyTest untilNs current).Behind bound clock := by
  rw [notifyTest]
  split <;> trivial

/-- A thread passes the barrier only by holding a reading at or past it. -/
theorem Pc.Behind.advance (hpc : pc.Behind bound clock) (hsound : pc.Sound clock) (hle : clock ≤ now)
    (hbound : bound ≤ rl.blockedUntil) (h : rl.advance now lucky pc = some (rl', pc')) :
    pc'.Behind bound now := by
  have hpc := hpc.mono hle
  cases pc <;> simp only [RateLimiter.advance, Option.some.injEq, Prod.mk.injEq, reduceCtorEq] at h
  case tryBarrier now₀ =>
    rw [← h.2]
    split
    case isTrue => trivial
    -- `try_acquire` goes on only if its reading has reached the barrier
    case isFalse hpast => exact (hbound.trans (Nat.le_of_not_lt hpast)).trans (hsound.trans hle)
  -- `acquire` has loaded a barrier that is up to the bound
  case acquireBarrier => exact h.2 ▸ hbound
  case acquireClock blockedUntil =>
    rw [← h.2]
    split
    case isTrue => trivial
    case isFalse hpast => exact Nat.le_trans hpc (Nat.le_of_not_lt hpast)
  case tryExchange | acquireExchange =>
    split_ifs at h <;> obtain ⟨-, rfl⟩ := Prod.mk.inj (Option.some.inj h) <;> trivial
  case notifyLoad untilNs => exact h.2 ▸ notifyTest_behind _ _
  case notifyExchange untilNs current =>
    split_ifs at h <;> obtain ⟨-, rfl⟩ := Prod.mk.inj (Option.some.inj h)
    · trivial
    · exact notifyTest_behind _ _
  all_goals first | exact h.2 ▸ trivial | exact h.2 ▸ hpc

/-- The invariant once the barrier is up: it stays up, and the thread `j` is behind it. -/
structure Barred (bound j : ℕ) (s : Timed State) : Prop where
  sound : Sound s
  barrier : bound ≤ s.state.limiter.blockedUntil
  behind : (s.state.threads j).Behind bound s.now

/-- **A thread behind the barrier stays there** until the clock has passed it. -/
theorem Barred.step (hs : Barred bound j s) (h : clocked.step s a = some t) : Barred bound j t := by
  refine ⟨hs.sound.step h, hs.barrier.trans (blockedUntil_le_of_step hs.sound h), ?_⟩
  obtain ⟨i, c, -, hnow, -, hthreads⟩ | ⟨i, lucky, pc, -, hle, hadv, hthreads⟩ :=
    clocked_step_cases h <;> rw [hthreads, Function.update_apply]
  · split
    case isTrue => exact enter_behind c
    case isFalse => exact hnow ▸ hs.behind
  · split
    case isTrue heq =>
      subst heq
      exact hs.behind.advance (hs.sound.threads j) hle hs.barrier hadv
    case isFalse => exact hs.behind.mono hle

/-- The step that admits a request is past every barrier its thread is behind. -/
theorem Barred.le_now (hs : Barred bound a.thread s) (hadm : Admits s.state a)
    (h : clocked.step s a = some t) : bound ≤ t.now := by
  refine le_trans ?_ (timed_step_eq_some.1 h).2.2
  have hbehind := hs.behind
  cases a with
  | call i c => exact absurd hadm.1 hs.sound.enabled
  | go i now lucky =>
    rw [Admits] at hadm
    rw [Action.thread] at hbehind
    cases hpc : s.state.threads i <;> rw [hpc] at hadm hbehind
    case tryExchange | acquireExchange | acquireSleep => exact hbehind
    all_goals exact hadm.elim

/-- **The barrier is hard for whoever has yet to load it.** Take any run of an enabled limiter, with
any budget and barrier left over from before, in which a `notify_rate_limited(r)` that read the clock
at `clock` has returned. From any state after that, a thread that has yet to load the barrier is not
admitted before `clock` and `r` seconds: neither by the call it is in nor by any later one. -/
theorem le_now_of_admits {requestsPerMinute burst r : UInt32} {tat barrier : ℕ}
    {bs cs ds : List Action} {v w x : Timed State} (hrate : 1 ≤ requestsPerMinute)
    (hbefore : clocked.run
      ⟨start { new requestsPerMinute burst with tat := tat, blockedUntil := barrier }, 0⟩ as = some s)
    (hnotify : Notifies s i r clock bs u) (hclock : clock < 2 ^ 63)
    (hafter : clocked.run u cs = some v) (hpc : (v.state.threads a.thread).BeforeBarrier)
    (hrest : clocked.run v ds = some w) (hadm : Admits w.state a) (hstep : clocked.step w a = some x) :
    clock + r.toNat * 1000000000 ≤ x.now := by
  have h0 : Sound ⟨start { new requestsPerMinute burst with tat := tat, blockedUntil := barrier }, 0⟩ :=
    ⟨(computeInterval_pos hrate).ne', fun _ ↦ trivial⟩
  have hs : Sound s := h0.run hbefore
  have hu : Barred (clock + r.toNat * 1000000000) i u :=
    ⟨hs.run hnotify.run, hnotify.le_blockedUntil hs hclock, by rw [hnotify.returned]; trivial⟩
  have hv : Barred (clock + r.toNat * 1000000000) i v :=
    (runsUnder_true_iff.2 hafter).invariant (fun _ _ _ hs _ hstep ↦ hs.step hstep) hu
  -- from `v` on it is the admitted thread that is followed
  have hw : Barred (clock + r.toNat * 1000000000) a.thread w :=
    (runsUnder_true_iff.2 hrest).invariant (fun _ _ _ hs _ hstep ↦ hs.step hstep)
      ⟨hv.sound, hv.barrier, hpc.behind⟩
  exact hw.le_now hadm hstep

/-- `acquire` by a thread that finds no barrier, up to its compare-exchange, all at one time. -/
def acquireAt (i now : ℕ) : List Action :=
  [.call i .acquire, .go i now true, .go i now true, .go i now true, .go i now true]

/-- `notify_rate_limited(1)` by the thread 2, from its clock reading at 9 to its return at `now`. -/
def notifyUntil (now : ℕ) : List Action := [.go 2 9 true, .go 2 now true, .go 2 now true]

/-- A notification that is run to its end, by evaluation. -/
theorem notifies_notifyUntil {pre : List Action}
    (hrun : (clocked.check SleepsOut ⟨start rl, 0⟩ (pre ++ notifyUntil now)).isSome)
    (hentered : (clocked.after ⟨start rl, 0⟩ pre).state.threads 2 = .notifyClock 1)
    (hreturned : (clocked.after ⟨start rl, 0⟩ (pre ++ notifyUntil now)).state.threads 2 = .idle)
    (hnow : (clocked.after ⟨start rl, 0⟩ (pre ++ notifyUntil now)).now = now) :
    Notifies (clocked.after ⟨start rl, 0⟩ pre) 2 1 9 (notifyUntil now)
      (clocked.after ⟨start rl, 0⟩ (pre ++ notifyUntil now)) where
  entered := hentered
  reading := ⟨true, _, rfl⟩
  calls := by simp [notifyUntil]
  run := (runsUnder_after hrun).run_eq
  returned := hreturned
  last := ⟨[.go 2 9 true, .go 2 now true], true, by rw [hnow]; rfl⟩

/-- A limiter of one request a second whose notification reads the clock at 9 and returns at 500: an
`acquire` one second after the reading goes through. -/
theorem le_now_of_acquireAt :
    9 + UInt32.toNat 1 * 1000000000 ≤ (clocked.after ⟨start (new 60 1), 0⟩
      ([.call 2 (.notifyRateLimited 1)] ++ notifyUntil 500 ++ acquireAt 1 1000000009 ++
        [.go 1 1000000009 true])).now := by
  have hstart : clocked.run ⟨start { new 60 1 with tat := 0, blockedUntil := 0 }, 0⟩
      [.call 2 (.notifyRateLimited 1)] = some _ :=
    (runsUnder_of_check (C := SleepsOut) (by decide +kernel)).run_eq
  have hnotify : Notifies _ 2 1 9 (notifyUntil 500) (clocked.after ⟨start (new 60 1), 0⟩
      ([.call 2 (.notifyRateLimited 1)] ++ notifyUntil 500)) :=
    notifies_notifyUntil (by decide +kernel) (by decide +kernel) (by decide +kernel)
      (by decide +kernel)
  have hidle : (clocked.after ⟨start (new 60 1), 0⟩
      ([.call 2 (.notifyRateLimited 1)] ++ notifyUntil 500)).state.threads 1 = .idle := by
    decide +kernel
  exact le_now_of_admits (by decide) hstart hnotify (by decide) (run_nil _ _) (hidle ▸ trivial)
    (runsUnder_after (C := SleepsOut) (by decide +kernel)).run_eq (by decide +kernel)
    ((run_singleton _ _ _).symm.trans (runsUnder_after (C := SleepsOut) (by decide +kernel)).run_eq)

/-! ### The calls that have loaded the barrier already

Two runs, one for each restriction of the result above: a thread in its sleep is not called back, and the
seconds are counted from the clock reading at the start of the notification. -/

/-- The run `pre ++ mid ++ post ++ [a]`, all of whose sleeps last as long as they should, admits a
request at `a`, less than `r` seconds after the notification in `mid` has returned. -/
structure AdmitsEarly (rl : RateLimiter) (r : UInt32) (pre mid post : List Action) (a : Action) :
    Prop where
  runs : ∃ u, clocked.RunsUnder SleepsOut ⟨start rl, 0⟩ (pre ++ mid ++ post ++ [a]) u
  notifies : ∃ i t, Notifies (clocked.after ⟨start rl, 0⟩ pre) i r t mid
    (clocked.after ⟨start rl, 0⟩ (pre ++ mid))
  admits : Admits (clocked.after ⟨start rl, 0⟩ (pre ++ mid ++ post)).state a
  early : (clocked.after ⟨start rl, 0⟩ (pre ++ mid ++ post ++ [a])).now <
    (clocked.after ⟨start rl, 0⟩ (pre ++ mid)).now + r.toNat * 1000000000

/-- **Neither restriction can go.** One thread takes the burst, the next one reserves a slot and
sleeps, and when the notification comes it sleeps on and returns as its slot comes due. And when a
notification takes long to return, an `acquire` that starts afterwards goes through before a second
has passed since the return. -/
theorem admitsEarly_of_sleeping_of_slow :
    AdmitsEarly (new 60 1) 1 (acquireAt 0 7 ++ .go 0 7 true :: acquireAt 1 8 ++
        [.go 1 8 true, .call 2 (.notifyRateLimited 1)]) (notifyUntil 10) [] (.go 1 1000000007 true) ∧
      AdmitsEarly (new 60 1) 1 [.call 2 (.notifyRateLimited 1)] (notifyUntil 500)
        (acquireAt 1 1000000009) (.go 1 1000000009 true) := by
  refine ⟨⟨⟨_, runsUnder_of_check (by decide +kernel)⟩, ⟨2, 9, ?_⟩, by decide +kernel,
    by decide +kernel⟩, ⟨⟨_, runsUnder_of_check (by decide +kernel)⟩, ⟨2, 9, ?_⟩,
    by decide +kernel, by decide +kernel⟩⟩ <;>
  exact notifies_notifyUntil (by decide +kernel) (by decide +kernel) (by decide +kernel)
    (by decide +kernel)

end RateLimiter

end Alpaca
