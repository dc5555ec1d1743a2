import AlpacaCpp.Http.RequestContext
import AlpacaCpp.Limiter.Notifications
import Mathlib.Data.Finset.Card
import Mathlib.Data.List.Count

/-!
# Callers that share a client

Any number of threads and coroutines may call one client at the same time. All they share is its limiter:
each of them goes round the loop of `execute_raw` or of `async_execute_raw`, and between two of its own steps
the others may take any number of theirs, atomic access by atomic access inside the limiter.

What the limiter promises is about admissions. A request goes out later, when its caller gets to it, and
by then the budget it was admitted on may be gone. So the server sees more than the budget of a window by
as many requests as there are callers under way when it begins, **and by no more** (`requests_in_window`);
and when a caller has told the limiter of a 429, **it sends nothing until the barrier has passed, and no
other caller more than the one request it may have been admitted for** (`requests_behind_barrier`).

A caller is in one of a few stages, and inside the limiter only in two of them: on its way to being admitted,
or while it tells the limiter of a 429. `Coherent` ties the stage to the program counter the limiter has for
this caller, so that what is known about the limiter can be used where the callers are. It is proved over
`Move`, which says once what a label does to the limiter, to the clock and to the callers.

The count of a window is a tally per caller:

* a reading of the clock, or the end of a sleep, is the time of an admission that is still to come or has
  just been made, and a caller holds one at a time (`Balanced`);
* every request of a caller has an admission of its own, for a time no later than the request itself;
* a caller that was on its way when the window began may have had its admission before (`OnTheWay`), and this
  is the one request on credit that `lag` counts.

Summing up the tallies, the requests are at most the admissions of the window and the callers in `lag`, and
the admissions are bounded by what the limiter promises (`Limiter/AdmissionWindow`).

Behind a 429, the barrier is up from the time the notification has returned (`Notifies.le_blockedUntil`),
and a caller that has not loaded it yet cannot be admitted before it has passed (`Barred`). Whoever has
loaded it already may send one request more, and is then behind it like the others (`barred_of_isEarly`).

**What is assumed** is asked of a run, label by label (`Disciplined`): no sum of an access leaves its
word, and a sleep inside the limiter lasts as long as it should. Of the callers nothing is assumed. They
may stop for ever at any place, be served in any order and get any answers; a bound that holds of a run
holds of every prefix of it.
-/

namespace Alpaca

namespace Callers

/-! ### The loop around the limiter

A caller is a number, and its stage says where in `execute_raw` or `async_execute_raw` it stands. The two
loops differ in what they ask the limiter: the first waits inside `acquire`, the second asks `try_acquire`
and goes into a timer when it is told no. How long that timer, an answer or a back-off takes is not looked
at, so every length of them is covered. A limiter that is disabled lets a caller pass without an access. -/

/-- `execute_raw` or `async_execute_raw` -/
inductive Pipeline where
  | blocking
  | coroutine
  deriving DecidableEq

/-- What each of them asks the limiter. -/
def Pipeline.function : Pipeline → RateLimiter.Call
  | blocking => .acquire
  | coroutine => .tryAcquire

/-- A call and its local `attempt`. -/
structure Attempt where
  pipeline : Pipeline
  number : ℕ
  deriving DecidableEq

/-- Where a caller stands. -/
inductive Stage where
  /-- Outside the client. -/
  | outside
  /-- In `acquire` or `try_acquire`. -/
  | admitting (a : Attempt)
  /-- `async_execute_raw`: in the timer behind a `try_acquire` that returned `false`. -/
  | polling (a : Attempt)
  /-- About to send its request. -/
  | admitted (a : Attempt)
  /-- Waiting for the answer. -/
  | awaiting (a : Attempt)
  /-- In `notify_rate_limited(1)`. -/
  | notifying (a : Attempt)
  /-- In the back-off in front of the next attempt. -/
  | backingOff (a : Attempt)
  deriving DecidableEq

/-- The limiter, with the position of every caller in it, and their positions in the loop. -/
structure State where
  limiter : RateLimiter.State
  callers : ℕ → Stage

/-- One label. A caller that is inside the limiter takes its next atomic access. How long a timer of the
polling loop, an answer or a back-off takes is left open. -/
inductive Action where
  /-- A call begins. -/
  | enter (caller : ℕ) (pipeline : Pipeline)
  | go (caller now : ℕ) (lucky : Bool)
  /-- The timer of the polling loop has fired. -/
  | poll (caller : ℕ)
  /-- The request goes out. -/
  | send (caller now : ℕ)
  | answer (caller : ℕ) (isOk : Bool) (status : ℕ)
  /-- The back-off is over. -/
  | retry (caller : ℕ)
  deriving DecidableEq

/-- Into `acquire` or `try_acquire`, which let everyone through when the limiter is disabled. -/
def State.admit (s : State) (i : ℕ) (a : Attempt) : Option State :=
  (RateLimiter.step s.limiter (.call i a.pipeline.function)).map fun l ↦
    ⟨l, Function.update s.callers i (if l.threads i = .idle then .admitted a else .admitting a)⟩

/-- Behind an answer that is no success: another attempt, or the exception. -/
def afterFailure (policy : RetryPolicy) (status : ℕ) (a : Attempt) : Stage :=
  if isRetryableStatus status ∧ a.number < policy.maxAttempts.toNat then .backingOff a else .outside

/-- Behind a function of the limiter; `granted` is what `try_acquire` returned. -/
def returned (policy : RetryPolicy) (granted : Prop) [Decidable granted] : Stage → Stage
  | .admitting a => if granted then .admitted a else .polling a
  | .notifying a => afterFailure policy 429 a
  | stage => stage

def step (policy : RetryPolicy) (s : State) : Action → Option State
  | .enter i pipeline => if s.callers i = .outside then s.admit i ⟨pipeline, 1⟩ else none
  | .go i now lucky =>
    (RateLimiter.step s.limiter (.go i now lucky)).map fun l ↦
      ⟨l, if l.threads i = .idle then
          Function.update s.callers i
            (returned policy (RateLimiter.Admits s.limiter (.go i now lucky)) (s.callers i))
        else s.callers⟩
  | .poll i =>
    match s.callers i with
    | .polling a => s.admit i a
    | _ => none
  | .send i _ =>
    match s.callers i with
    | .admitted a => some { s with callers := Function.update s.callers i (.awaiting a) }
    | _ => none
  | .answer i isOk status =>
    match s.callers i with
    | .awaiting a =>
      if isOk then some { s with callers := Function.update s.callers i .outside }
      else if status = 429 then
        (RateLimiter.step s.limiter (.call i (.notifyRateLimited 1))).map fun l ↦
          ⟨l, Function.update s.callers i (.notifying a)⟩
      else some { s with callers := Function.update s.callers i (afterFailure policy status a) }
    | _ => none
  | .retry i =>
    match s.callers i with
    | .backingOff a => s.admit i { a with number := a.number + 1 }
    | _ => none

/-- The clock is read inside the limiter, and a request goes out at some time. -/
def Action.time? : Action → Option ℕ
  | .go _ now _ | .send _ now => some now
  | _ => none

/-- The callers and a monotone clock. -/
def clocked (policy : RetryPolicy) : Machine (Timed State) Action :=
  (Machine.mk (step policy)).timed Action.time?

/-- Nobody has called yet. -/
def start (rl : RateLimiter) : State := ⟨RateLimiter.start rl, fun _ ↦ .outside⟩

/-- No sum of an access leaves its word, and a sleep inside the limiter lasts as long as it should. -/
def Disciplined (s : Timed State) : Action → Prop
  | .go i now lucky => RateLimiter.NoWrap s.state.limiter (.go i now lucky) ∧
      RateLimiter.SleepsOut ⟨s.state.limiter, s.now⟩ (.go i now lucky)
  | _ => True

instance (s : Timed State) : DecidablePred (Disciplined s)
  | .go _ _ _ => inferInstanceAs (Decidable (_ ∧ _))
  | .enter _ _ | .poll _ | .send _ _ | .answer _ _ _ | .retry _ => isTrue trivial

def Action.caller : Action → ℕ
  | .enter i _ | .go i _ _ | .poll i | .send i _ | .answer i _ _ | .retry i => i

/-- The caller whose request goes out. -/
def Action.sender? : Action → Option ℕ
  | .send i _ => some i
  | _ => none

/-! ### What a label does

There are four kinds of moves, whichever loop a caller is in. An entry, a poll and a retry are all a call
of the limiter; so is the report of a 429. An access inside the limiter is a step of the limiter's own
machine, and its last one takes the caller back to the loop. The rest leaves the limiter alone. -/

variable {policy : RetryPolicy} {s t u w : Timed State} {a : Action} {as bs cs : List Action} {i j : ℕ}

/-- The limiter and the clock. -/
def inside (s : Timed State) : Timed RateLimiter.State := ⟨s.state.limiter, s.now⟩

/-- What a label does to an enabled limiter and to the callers: a caller goes into a function of the
limiter, it takes a step there, it sends its request, or it finds out that its call is over or has to wait.
-/
inductive Move (policy : RetryPolicy) (s t : Timed State) : Action → Prop where
  | call {a : Action} (c : RateLimiter.Call) (stage : Stage) (hquiet : a.time? = none)
      (hlimiter : RateLimiter.clocked.step (inside s) (.call a.caller c) = some (inside t))
      (hcallers : t.state.callers = Function.update s.state.callers a.caller stage)
      (hstage : (∃ att, c = att.pipeline.function ∧ stage = .admitting att) ∨
        c = .notifyRateLimited 1 ∧ ∃ att, stage = .notifying att) :
      Move policy s t a
  | go (i : ℕ) (lucky : Bool)
      (hlimiter : RateLimiter.clocked.step (inside s) (.go i t.now lucky) = some (inside t))
      (hcallers : t.state.callers = if t.state.limiter.threads i = .idle then Function.update s.state.callers i
        (returned policy (RateLimiter.Admits s.state.limiter (.go i t.now lucky)) (s.state.callers i))
        else s.state.callers) :
      Move policy s t (.go i t.now lucky)
  | send (i : ℕ) (att : Attempt) (hlimiter : t.state.limiter = s.state.limiter) (hnow : s.now ≤ t.now)
      (hadmitted : s.state.callers i = .admitted att)
      (hcallers : t.state.callers = Function.update s.state.callers i (.awaiting att)) :
      Move policy s t (.send i t.now)
  | settle {a : Action} (att : Attempt) (stage : Stage) (hquiet : a.time? = none)
      (hlimiter : t.state.limiter = s.state.limiter) (hnow : t.now = s.now)
      (hawaiting : s.state.callers a.caller = .awaiting att)
      (hcallers : t.state.callers = Function.update s.state.callers a.caller stage)
      (hstage : stage = .outside ∨ stage = .backingOff att) :
      Move policy s t a

/-- A failure is retried behind a back-off, or ends the call. -/
theorem afterFailure_eq (policy : RetryPolicy) (status : ℕ) (a : Attempt) :
    afterFailure policy status a = .outside ∨ afterFailure policy status a = .backingOff a := by
  rw [afterFailure]
  split
  · exact .inr rfl
  · exact .inl rfl

/-- An enabled limiter keeps whoever goes in. -/
theorem enter_ne_idle {rl : RateLimiter} (henabled : rl.intervalNs ≠ 0) (c : RateLimiter.Call) :
    rl.enter c ≠ .idle := by
  cases c <;> simp [RateLimiter.enter, henabled]

theorem clocked_call {c : RateLimiter.Call} {l : RateLimiter.State}
    (h : RateLimiter.step s.state.limiter (.call i c) = some l) :
    RateLimiter.clocked.step (inside s) (.call i c) = some ⟨l, s.now⟩ :=
  Machine.timed_step_eq_some.2 ⟨h, rfl, le_rfl⟩

/-- A call starts from an idle thread and touches this thread only. -/
theorem threads_of_call {l l' : RateLimiter.State} {c : RateLimiter.Call}
    (h : RateLimiter.step l (.call i c) = some l') :
    l.threads i = .idle ∧ l' = { l with threads := Function.update l.threads i (l.limiter.enter c) } := by
  rw [RateLimiter.step] at h
  split at h
  case isTrue hidle => exact ⟨hidle, (Option.some.inj h).symm⟩
  case isFalse => cases h

/-- Going into the limiter, as `enter`, `poll` and `retry` do it. -/
theorem move_of_admit (henabled : s.state.limiter.limiter.intervalNs ≠ 0) (hquiet : a.time? = none)
    {att : Attempt} (h : s.state.admit a.caller att = some t.state) (hnow : t.now = s.now) :
    Move policy s t a := by
  obtain ⟨l, hl, ht⟩ := Option.map_eq_some_iff.1 h
  have hin : inside t = ⟨l, s.now⟩ := by rw [inside, ← ht, hnow]
  have hne : l.threads a.caller ≠ .idle := by
    rw [(threads_of_call hl).2]
    exact (Function.update_self ..).trans_ne (enter_ne_idle henabled _)
  refine .call _ (.admitting att) hquiet (hin ▸ clocked_call hl) ?_ (.inl ⟨att, rfl, rfl⟩)
  rw [← ht, if_neg hne]

/-- **Every step is a move.** The limiter is enabled, so that a call does go inside. -/
theorem move_of_step (henabled : s.state.limiter.limiter.intervalNs ≠ 0)
    (h : (clocked policy).step s a = some t) : Move policy s t a := by
  obtain ⟨hstep, hnow, hle⟩ : step policy s.state a = some t.state ∧ _ ∧ _ := Machine.timed_step_eq_some.1 h
  cases a with
  | enter i pipeline =>
    rw [step] at hstep
    split at hstep
    case isTrue => exact move_of_admit henabled rfl hstep hnow
    case isFalse => cases hstep
  | poll i =>
    rw [step] at hstep
    split at hstep
    · exact move_of_admit henabled rfl hstep hnow
    · cases hstep
  | retry i =>
    rw [step] at hstep
    split at hstep
    · exact move_of_admit henabled rfl hstep hnow
    · cases hstep
  | go i now lucky =>
    obtain ⟨l, hl, ht⟩ := Option.map_eq_some_iff.1 hstep
    obtain rfl : t.now = now := hnow
    have hin : inside t = ⟨l, t.now⟩ := by rw [inside, ← ht]
    exact .go i lucky (hin ▸ Machine.timed_step_eq_some.2 ⟨hl, rfl, hle⟩) (by rw [← ht])
  | send i now =>
    obtain rfl : t.now = now := hnow
    rw [step] at hstep
    split at hstep
    case h_1 att hadmitted =>
      obtain ht := Option.some.inj hstep
      exact .send i att (by rw [← ht]) hle hadmitted (by rw [← ht])
    case h_2 => cases hstep
  | answer i isOk status =>
    rw [step] at hstep
    split at hstep
    case h_2 => cases hstep
    case h_1 att hawaiting =>
      split_ifs at hstep with hok h429
      · obtain ht := Option.some.inj hstep
        exact .settle att .outside rfl (by rw [← ht]) hnow hawaiting (by rw [← ht]; rfl) (.inl rfl)
      · obtain ⟨l, hl, ht⟩ := Option.map_eq_some_iff.1 hstep
        have hin : inside t = ⟨l, s.now⟩ := by rw [inside, ← ht, hnow]; rfl
        exact .call _ (.notifying att) rfl (hin ▸ clocked_call hl) (by rw [← ht]; rfl) (.inr ⟨rfl, att, rfl⟩)
      · obtain ht := Option.some.inj hstep
        exact .settle att _ rfl (by rw [← ht]) hnow hawaiting (by rw [← ht]; rfl)
          (afterFailure_eq policy status att)

/-! ### What holds of every caller

A caller that is not in the limiter has an idle thread there, and one that is in it runs the function that
its stage names. With it comes the invariant of the limiter itself, so that the lemmas about its threads
apply. -/

/-- Where a caller may be inside the limiter. -/
def Stage.Holds (pc : RateLimiter.Pc) : Stage → Prop
  | .admitting _ => ¬pc.Notifying
  | .notifying _ => pc.Notifying
  | _ => pc = .idle

/-- On the way to a request: about to send it, or asking for it. -/
def Stage.Engaged : Stage → Prop
  | .admitting _ | .admitted _ => True
  | _ => False

/-- The invariant of every run of an enabled limiter. -/
structure Coherent (s : Timed State) : Prop where
  limiter : RateLimiter.Sound (inside s)
  holds : ∀ i, (s.state.callers i).Holds (s.state.limiter.threads i)

/-- What an access inside the limiter does, seen from outside. -/
theorem advance_of_go {now : ℕ} {lucky : Bool}
    (h : RateLimiter.clocked.step (inside s) (.go i now lucky) = some (inside t)) : ∃ pc,
      s.state.limiter.limiter.advance now lucky (s.state.limiter.threads i) = some (t.state.limiter.limiter, pc) ∧
      t.state.limiter.threads = Function.update s.state.limiter.threads i pc := by
  obtain ⟨i', c, heq, -⟩ | ⟨i', lucky', pc, heq, -, hadv, hthreads⟩ := RateLimiter.clocked_step_cases h
  · cases heq
  · obtain ⟨rfl, hnow, rfl⟩ := RateLimiter.Action.go.inj heq
    exact ⟨pc, hnow ▸ hadv, hthreads⟩

/-- Going into the limiter, seen from outside. -/
theorem enter_of_call {c : RateLimiter.Call}
    (h : RateLimiter.clocked.step (inside s) (.call i c) = some (inside t)) :
    t.now = s.now ∧ s.state.limiter.threads i = .idle ∧ t.state.limiter.limiter = s.state.limiter.limiter ∧
      t.state.limiter.threads =
        Function.update s.state.limiter.threads i (s.state.limiter.limiter.enter c) := by
  obtain ⟨hstep, hnow, -⟩ : RateLimiter.step s.state.limiter (.call i c) = some t.state.limiter ∧ _ ∧ _ :=
    Machine.timed_step_eq_some.1 h
  obtain ⟨hidle, ht⟩ := threads_of_call hstep
  exact ⟨hnow, hidle, by rw [ht], by rw [ht]⟩

/-- The limiter stays sound while the clock goes on without it. -/
theorem sound_mono (h : RateLimiter.Sound (inside s)) (hlimiter : t.state.limiter = s.state.limiter)
    (hle : s.now ≤ t.now) : RateLimiter.Sound (inside t) where
  enabled := by
    rw [inside, hlimiter]
    exact h.enabled
  threads i := by
    rw [inside, hlimiter]
    exact (h.threads i).mono hle

/-- A call that returns leaves its caller outside the limiter, in the stage that comes next. -/
theorem holds_of_returned {policy : RetryPolicy} {granted : Prop} [Decidable granted] {stage : Stage}
    {pc : RateLimiter.Pc} (h : stage.Holds pc) (hpc : pc ≠ .idle) :
    (returned policy granted stage).Holds .idle := by
  cases stage with
  | admitting att =>
    rw [returned]
    split <;> rfl
  | notifying att =>
    rw [returned]
    obtain heq | heq := afterFailure_eq policy 429 att <;> rw [heq] <;> rfl
  | _ => exact absurd h hpc

/-- A caller that goes on has been let through, now or before. -/
theorem granted_or_of_returned {policy : RetryPolicy} {granted : Prop} [Decidable granted] {stage : Stage}
    {att : Attempt} (h : returned policy granted stage = .admitted att) : granted ∨ stage = .admitted att := by
  cases stage with
  | admitting old =>
    rw [returned] at h
    split at h
    case isTrue hgranted => exact .inl hgranted
    case isFalse => cases h
  | notifying old =>
    rw [returned] at h
    obtain heq | heq := afterFailure_eq policy 429 old <;> rw [heq] at h <;> cases h
  | _ => exact .inr h

/-- **Stages and program counters move together.** -/
theorem Coherent.move (hs : Coherent s) (h : Move policy s t a) : Coherent t := by
  cases h with
  | call c stage hquiet hlimiter hcallers hstage =>
    refine ⟨hs.limiter.step hlimiter, fun j ↦ ?_⟩
    obtain ⟨-, -, -, hthreads⟩ := enter_of_call hlimiter
    rw [hcallers, hthreads, Function.update_apply, Function.update_apply]
    split
    case isTrue =>
      obtain ⟨att, rfl, rfl⟩ | ⟨rfl, att, rfl⟩ := hstage
      · obtain hpc | hpc : s.state.limiter.limiter.enter att.pipeline.function = .acquireBarrier ∨
            s.state.limiter.limiter.enter att.pipeline.function = .tryClock := by
          rcases att.pipeline with - | -
          · exact .inl (if_neg hs.limiter.enabled)
          · exact .inr (if_neg hs.limiter.enabled)
        all_goals rw [hpc]; exact id
      · trivial
    case isFalse => exact hs.holds j
  | go i lucky hlimiter hcallers =>
    refine ⟨hs.limiter.step hlimiter, fun j ↦ ?_⟩
    obtain ⟨pc, hadv, hthreads⟩ := advance_of_go hlimiter
    have hne : s.state.limiter.threads i ≠ .idle := fun hidle ↦ by rw [hidle] at hadv; cases hadv
    rcases eq_or_ne j i with rfl | hji
    · rw [hcallers, hthreads, Function.update_self]
      split
      case isTrue hidle =>
        rw [Function.update_self, hidle]
        exact holds_of_returned (hs.holds j) hne
      -- the call is still under way, and has not left the function it is in
      case isFalse hpc =>
        have hold := hs.holds j
        generalize s.state.callers j = stage at hold
        cases stage with
        | admitting att => exact fun h ↦ hold (RateLimiter.notifying_of_advance hadv h)
        | notifying att => exact (RateLimiter.notifying_advance hold hadv).resolve_left hpc
        | _ => exact absurd hold hne
    · rw [hcallers, hthreads, Function.update_of_ne hji]
      split
      · rw [Function.update_of_ne hji]
        exact hs.holds j
      · exact hs.holds j
  | send i att hlimiter hnow hadmitted hcallers =>
    refine ⟨sound_mono hs.limiter hlimiter hnow, fun j ↦ ?_⟩
    rw [hcallers, hlimiter, Function.update_apply]
    split
    case isTrue heq =>
      have hold := hs.holds i
      rw [hadmitted] at hold
      rw [heq]
      exact hold
    case isFalse => exact hs.holds j
  | settle att stage hquiet hlimiter hnow hawaiting hcallers hstage =>
    refine ⟨sound_mono hs.limiter hlimiter hnow.ge, fun j ↦ ?_⟩
    rw [hcallers, hlimiter, Function.update_apply]
    split
    case isTrue heq =>
      have hold := hs.holds a.caller
      rw [hawaiting] at hold
      rw [heq]
      obtain rfl | rfl := hstage <;> exact hold
    case isFalse => exact hs.holds j

theorem Coherent.step (hs : Coherent s) (h : (clocked policy).step s a = some t) : Coherent t :=
  hs.move (move_of_step hs.limiter.enabled h)

theorem Coherent.run (hs : Coherent s) (h : (clocked policy).run s as = some t) : Coherent t :=
  (Machine.runsUnder_true_iff.2 h).invariant (fun _ _ _ hs _ hstep ↦ hs.step hstep) hs

theorem coherent_start {requestsPerMinute burst : UInt32} (hrate : 1 ≤ requestsPerMinute) (clock : ℕ) :
    Coherent ⟨start (RateLimiter.new requestsPerMinute burst), clock⟩ :=
  ⟨⟨(RateLimiter.computeInterval_pos hrate).ne', fun _ ↦ trivial⟩, fun _ ↦ rfl⟩

/-! ### Behind the barrier of a 429

Three stretches have to be told apart. Until the notification has returned nothing is promised. At that
time each other caller is either barred, and stays so until the barrier has passed, or it has already
loaded the old barrier or been admitted. Such a caller may send one request early (`Action.isEarly`); for
its next attempt it goes back into the limiter, where it finds the barrier. -/

/-- A whole call of `notify_rate_limited(1)` by the caller `i`, from its clock reading at `clock` to its
return, the others going on in between. -/
structure Notifies (policy : RetryPolicy) (s : Timed State) (i clock : ℕ) (as : List Action)
    (u : Timed State) : Prop where
  entered : s.state.limiter.threads i = .notifyClock 1
  reading : ∃ lucky bs, as = .go i clock lucky :: bs
  steps : ∀ a ∈ as, a.caller = i → a.time? ≠ none
  run : (clocked policy).run s as = some u
  returned : u.state.limiter.threads i = .idle

/-- A request of the caller `j` that goes out before `bound`. -/
def Action.isEarly (bound j : ℕ) : Action → Bool
  | .send i now => i = j ∧ now < bound
  | _ => false

/-- The barrier never comes down. -/
theorem blockedUntil_le_of_move (hs : Coherent s) (h : Move policy s t a) :
    s.state.limiter.limiter.blockedUntil ≤ t.state.limiter.limiter.blockedUntil := by
  cases h with
  | call c stage hquiet hlimiter => exact RateLimiter.blockedUntil_le_of_step hs.limiter hlimiter
  | go i lucky hlimiter => exact RateLimiter.blockedUntil_le_of_step hs.limiter hlimiter
  | send i att hlimiter => rw [hlimiter]
  | settle att stage hquiet hlimiter => rw [hlimiter]

/-- What a notifying caller carries, the others keep. -/
theorem raising_of_move {bound : ℕ} (hs : Coherent s)
    (hraise : (s.state.limiter.threads i).Raising bound s.state.limiter.limiter.blockedUntil)
    (ha : a.caller = i → a.time? ≠ none) (h : Move policy s t a) :
    (t.state.limiter.threads i).Raising bound t.state.limiter.limiter.blockedUntil := by
  cases h with
  | call c stage hquiet hlimiter =>
    refine RateLimiter.raising_of_step hs.limiter hraise (fun c' heq ↦ ?_) hlimiter
    exact ha (RateLimiter.Action.call.inj heq).1 hquiet
  | go i lucky hlimiter => exact RateLimiter.raising_of_step hs.limiter hraise (by simp) hlimiter
  | send i att hlimiter => rwa [hlimiter]
  | settle att stage hquiet hlimiter => rwa [hlimiter]

/-- Nor does it set out for another request. -/
theorem not_engaged_of_move (hi : ¬(s.state.callers i).Engaged) (ha : a.caller = i → a.time? ≠ none)
    (h : Move policy s t a) : ¬(t.state.callers i).Engaged := by
  cases h with
  | call c stage hquiet hlimiter hcallers =>
    rwa [hcallers, Function.update_of_ne fun heq ↦ ha heq.symm hquiet]
  | settle att stage hquiet hlimiter hnow hawaiting hcallers =>
    rwa [hcallers, Function.update_of_ne fun heq ↦ ha heq.symm hquiet]
  | send j att hlimiter hnow hadmitted hcallers =>
    rw [hcallers, Function.update_apply]
    split
    · exact id
    · exact hi
  | go j lucky hlimiter hcallers =>
    rw [hcallers]
    split
    case isFalse => exact hi
    case isTrue =>
      rw [Function.update_apply]
      split
      case isFalse => exact hi
      case isTrue heq =>
        subst heq
        generalize s.state.callers i = stage at hi
        cases stage with
        | admitting att => exact absurd trivial hi
        | notifying att =>
          rw [returned]
          obtain hfail | hfail := afterFailure_eq policy 429 att <;> rw [hfail] <;> exact id
        | _ => exact hi

/-- A notification that has returned has the barrier up for a second from its reading. -/
theorem Notifies.le_blockedUntil {clock : ℕ} (h : Notifies policy s i clock as u) (hs : Coherent s)
    (hclock : clock < 2 ^ 63) : clock + 1000000000 ≤ u.state.limiter.limiter.blockedUntil := by
  obtain ⟨lucky, bs, rfl⟩ := h.reading
  obtain ⟨v, hfirst, hrest⟩ := Option.bind_eq_some_iff.1 h.run
  have hfit : u64 (clock + UInt32.toNat 1 * 1000000000) = clock + 1000000000 := by
    rw [show UInt32.toNat 1 = 1 from rfl, Nat.one_mul]
    exact u64_of_lt (by omega)
  have hv : (v.state.limiter.threads i).Raising (clock + 1000000000)
      v.state.limiter.limiter.blockedUntil := by
    obtain ⟨hstep, -, -⟩ : step policy s.state (.go i clock lucky) = some v.state ∧ _ ∧ _ :=
      Machine.timed_step_eq_some.1 hfirst
    obtain ⟨l, hl, hv⟩ := Option.map_eq_some_iff.1 hstep
    obtain ⟨⟨rl, pc⟩, hadv, rfl⟩ := Option.map_eq_some_iff.1 hl
    rw [h.entered] at hadv
    obtain ⟨-, rfl⟩ := Prod.mk.inj (Option.some.inj hadv)
    rw [← hv]
    dsimp only
    rw [Function.update_self, hfit]
    rfl
  obtain ⟨-, hu⟩ := ((Machine.runsUnder_true_iff.2 hrest).and_forall fun a ha ↦
      h.steps a (List.mem_cons_of_mem _ ha)).invariant
    (P := fun s ↦ Coherent s ∧ (s.state.limiter.threads i).Raising (clock + 1000000000)
      s.state.limiter.limiter.blockedUntil)
    (fun _ _ _ hs hC hstep ↦ ⟨hs.1.step hstep,
      raising_of_move hs.1 hs.2 hC.2 (move_of_step hs.1.limiter.enabled hstep)⟩)
    ⟨hs.step hfirst, hv⟩
  rwa [h.returned] at hu

/-- The barrier is up and the caller `j` is behind it. -/
structure Barred (bound j : ℕ) (s : Timed State) : Prop where
  coherent : Coherent s
  limiter : RateLimiter.Barred bound j (inside s)
  admitted : ∀ att, s.state.callers j = .admitted att → bound ≤ s.now

/-- Whoever is behind the barrier stays there while the clock goes on. -/
theorem barred_mono {bound : ℕ} (h : RateLimiter.Barred bound j (inside s))
    (hlimiter : t.state.limiter = s.state.limiter) (hle : s.now ≤ t.now) :
    RateLimiter.Barred bound j (inside t) where
  sound := sound_mono h.sound hlimiter hle
  barrier := by
    rw [inside, hlimiter]
    exact h.barrier
  behind := by
    rw [inside, hlimiter]
    exact h.behind.mono hle

/-- **A step keeps a caller behind the barrier.** -/
theorem Barred.step {bound : ℕ} (hs : Barred bound j s) (h : (clocked policy).step s a = some t) :
    Barred bound j t := by
  have hle : s.now ≤ t.now := (Machine.timed_step_eq_some.1 h).2.2
  have hmove := move_of_step hs.coherent.limiter.enabled h
  refine ⟨hs.coherent.step h, ?_, fun att hatt ↦ ?_⟩
  · cases hmove with
    | call c stage hquiet hlimiter => exact hs.limiter.step hlimiter
    | go i lucky hlimiter => exact hs.limiter.step hlimiter
    | send i att hlimiter => exact barred_mono hs.limiter hlimiter hle
    | settle att stage hquiet hlimiter => exact barred_mono hs.limiter hlimiter hle
  · have hkept : ∀ {i stage}, t.state.callers = Function.update s.state.callers i stage → stage ≠ .admitted att →
        bound ≤ t.now := by
      intro i stage hcallers hstage
      rw [hcallers, Function.update_apply] at hatt
      split at hatt
      · exact absurd hatt hstage
      · exact (hs.admitted att hatt).trans hle
    cases hmove with
    | call c stage hquiet hlimiter hcallers hstage =>
      refine hkept hcallers ?_
      obtain ⟨_, -, rfl⟩ | ⟨-, _, rfl⟩ := hstage <;> simp
    | send i att' hlimiter hnow hadmitted hcallers => exact hkept hcallers (by simp)
    | settle att' stage hquiet hlimiter hnow hawaiting hcallers hstage =>
      refine hkept hcallers ?_
      obtain rfl | rfl := hstage <;> simp
    | go i lucky hlimiter hcallers =>
      -- Only a grant makes a caller go on, and a grant is past every barrier.
      rw [hcallers] at hatt
      split at hatt
      case isFalse => exact (hs.admitted att hatt).trans hle
      case isTrue =>
        rw [Function.update_apply] at hatt
        split at hatt
        case isFalse => exact (hs.admitted att hatt).trans hle
        case isTrue heq =>
          subst heq
          obtain hadm | hold := granted_or_of_returned hatt
          · exact hs.limiter.le_now (a := .go j t.now lucky) hadm hlimiter
          · exact (hs.admitted att hold).trans hle

/-- Whoever is behind the barrier sends nothing before it has passed. -/
theorem Barred.isEarly_eq_false {bound : ℕ} (hs : Barred bound j s) (h : (clocked policy).step s a = some t) :
    a.isEarly bound j = false := by
  cases move_of_step hs.coherent.limiter.enabled h with
  | call c stage hquiet => cases a <;> first | rfl | cases hquiet
  | settle att stage hquiet => cases a <;> first | rfl | cases hquiet
  | go => rfl
  | send i att hlimiter hnow hadmitted =>
    refine decide_eq_false fun hearly ↦ ?_
    obtain ⟨rfl, hlt⟩ := hearly
    exact absurd ((hs.admitted att hadmitted).trans hnow) (Nat.not_le_of_lt hlt)

/-- A caller behind the barrier sends no request before it has passed. -/
theorem Barred.countP_isEarly {bound : ℕ} (hs : Barred bound j s) (h : (clocked policy).run s as = some u) :
    as.countP (·.isEarly bound j) = 0 := by
  refine List.countP_eq_zero.2 fun a ha ↦ Bool.eq_false_iff.1 ?_
  exact (Machine.runsUnder_true_iff.2 h).forall_mem (P := Barred bound j)
    (Q := fun a ↦ a.isEarly bound j = false) (fun _ _ _ hs _ hstep ↦ ⟨hs.isEarly_eq_false hstep, hs.step hstep⟩)
    hs a ha

/-- A request that goes out leaves its caller behind the barrier. -/
theorem barred_of_isEarly {bound : ℕ} (hs : Coherent s) (hbarrier : bound ≤ s.state.limiter.limiter.blockedUntil)
    (hearly : a.isEarly bound j = true) (h : (clocked policy).step s a = some t) : Barred bound j t := by
  have ht := hs.step h
  cases move_of_step hs.limiter.enabled h with
  | call c stage hquiet => cases a <;> first | cases hearly | cases hquiet
  | settle att stage hquiet => cases a <;> first | cases hearly | cases hquiet
  | go => cases hearly
  -- the sender is outside the limiter, and will load the barrier before it is admitted again
  | send i att hlimiter hnow hadmitted hcallers =>
    obtain ⟨rfl, -⟩ := of_decide_eq_true hearly
    have hidle := hs.holds i
    rw [hadmitted] at hidle
    refine ⟨ht, ⟨ht.limiter, ?_, ?_⟩, fun att' hatt ↦ ?_⟩
    · rwa [inside, hlimiter]
    · rw [inside, hlimiter]
      exact (show s.state.limiter.threads i = .idle from hidle) ▸ trivial
    · rw [hcallers, Function.update_self] at hatt
      cases hatt

/-- Whoever is not behind the barrier yet sends at most one request before it has passed. -/
theorem countP_isEarly_le_one {bound : ℕ} (hs : Coherent s)
    (hbarrier : bound ≤ s.state.limiter.limiter.blockedUntil) (h : (clocked policy).run s as = some u) :
    as.countP (·.isEarly bound j) ≤ 1 := by
  induction as generalizing s with
  | nil => exact Nat.zero_le _
  | cons a as ih =>
    obtain ⟨t, hstep, hrun⟩ := Option.bind_eq_some_iff.1 h
    rw [List.countP_cons]
    split
    -- the first request before the barrier is the last
    case isTrue hearly => rw [(barred_of_isEarly hs hbarrier hearly hstep).countP_isEarly hrun]
    case isFalse =>
      exact ih (hs.step hstep) (hbarrier.trans (blockedUntil_le_of_move hs
        (move_of_step hs.limiter.enabled hstep))) hrun

/-- **A 429 stops the client.** When the notification of a caller that got one has returned, no caller sends
more than one request before a second has passed since the notification read the clock, and only one that has
loaded the barrier before or been admitted can send it: never the caller that got the 429. -/
theorem requests_behind_barrier {requestsPerMinute burst : UInt32} {clock₀ clock : ℕ}
    (hrate : 1 ≤ requestsPerMinute)
    (hbefore : (clocked policy).run ⟨start (RateLimiter.new requestsPerMinute burst), clock₀⟩ as = some s)
    (hnotify : Notifies policy s i clock bs u) (hclock : clock < 2 ^ 63)
    (hafter : (clocked policy).run u cs = some w) :
    (∀ j, cs.countP (·.isEarly (clock + 1000000000) j) ≤ 1) ∧
      (∀ j, (u.state.limiter.threads j).BeforeBarrier → (∀ att, u.state.callers j ≠ .admitted att) →
        cs.countP (·.isEarly (clock + 1000000000) j) = 0) ∧
      cs.countP (·.isEarly (clock + 1000000000) i) = 0 := by
  have hs : Coherent s := (coherent_start hrate clock₀).run hbefore
  have hu : Coherent u := hs.run hnotify.run
  have hbarrier := hnotify.le_blockedUntil hs hclock
  have hbarred : ∀ j, (u.state.limiter.threads j).BeforeBarrier → (∀ att, u.state.callers j ≠ .admitted att) →
      Barred (clock + 1000000000) j u := fun j hpc hstage ↦
    ⟨hu, ⟨hu.limiter, hbarrier, hpc.behind⟩, fun att hatt ↦ absurd hatt (hstage att)⟩
  refine ⟨fun j ↦ countP_isEarly_le_one hu hbarrier hafter,
    fun j hpc hstage ↦ (hbarred j hpc hstage).countP_isEarly hafter, ?_⟩
  -- the caller with the 429 has not set out for another request while it reported it
  have hi : ¬(u.state.callers i).Engaged := by
    refine ((Machine.runsUnder_true_iff.2 hnotify.run).and_forall hnotify.steps).invariant
      (P := fun s ↦ Coherent s ∧ ¬(s.state.callers i).Engaged)
      (fun _ _ _ hs hC hstep ↦ ⟨hs.1.step hstep,
        not_engaged_of_move hs.2 hC.2 (move_of_step hs.1.limiter.enabled hstep)⟩) ⟨hs, ?_⟩ |>.2
    have hold := hs.holds i
    rw [hnotify.entered] at hold
    generalize s.state.callers i = stage at hold
    cases stage with
    | admitting att => exact absurd trivial hold
    | notifying att => exact id
    | _ => cases hold
  exact (hbarred i (hnotify.returned ▸ trivial) fun att hatt ↦ hi (hatt ▸ trivial)).countP_isEarly hafter

/-! ### The requests of a window

Every request of a caller is matched with an admission of its own, of a time at which the caller may well have
been still asleep: only of its first request in a window the admission may lie in front of it. -/

/-- What is counted of a run. -/
inductive Note where
  | admission (caller : ℕ) (a : Arrival ℕ)
  | request (caller : ℕ)

/-- What a step adds. -/
def note (s : Timed State) : Action → Option Note
  | .go i now lucky => (RateLimiter.admission s.state.limiter (.go i now lucky)).map (.admission i)
  | .send i _ => some (.request i)
  | _ => none

/-- The admissions, each with its caller. -/
def admissions (log : List Note) : List (ℕ × Arrival ℕ) :=
  log.filterMap fun
    | .admission i a => some (i, a)
    | .request _ => none

/-- The callers of the requests. -/
def senders (log : List Note) : List ℕ :=
  log.filterMap fun
    | .admission _ _ => none
    | .request i => some i

/-- The admissions, as the limiter counts them. -/
def arrivals (log : List Note) : List (Arrival ℕ) := (admissions log).map Prod.snd

/-- The callers that were admitted for times from `lo` to `hi`. -/
def grants (lo hi : ℕ) (log : List Note) : List ℕ :=
  ((admissions log).filter fun x ↦ decide (lo ≤ x.2.time ∧ x.2.time ≤ hi)).map Prod.fst

theorem senders_append (log log' : List Note) : senders (log ++ log') = senders log ++ senders log' :=
  List.filterMap_append

theorem arrivals_append (log log' : List Note) : arrivals (log ++ log') = arrivals log ++ arrivals log' := by
  rw [arrivals, admissions, List.filterMap_append, List.map_append]
  rfl

theorem grants_append (lo hi : ℕ) (log log' : List Note) :
    grants lo hi (log ++ log') = grants lo hi log ++ grants lo hi log' := by
  rw [grants, admissions, List.filterMap_append, List.filter_append, List.map_append]
  rfl

theorem length_grants (lo hi : ℕ) (log : List Note) : (grants lo hi log).length =
    ((arrivals log).filter fun a ↦ decide (lo ≤ a.time ∧ a.time ≤ hi)).length := by
  rw [grants, arrivals, List.filter_map, List.length_map, List.length_map]
  rfl

/-- Later on, and up to a later time, there are more. -/
theorem count_grants_mono (lo : ℕ) {hi hi' : ℕ} (h : hi ≤ hi') (log more : List Note) (i : ℕ) :
    (grants lo hi log).count i ≤ (grants lo hi' (log ++ more)).count i := by
  rw [grants_append, List.count_append]
  refine Nat.le_add_right_of_le (List.Sublist.count_le i (List.Sublist.map _ ?_))
  refine List.monotone_filter_right _ fun x hx ↦ ?_
  simp only [decide_eq_true_eq] at hx ⊢
  exact ⟨hx.1, hx.2.trans h⟩

/-- An admission of the caller's own counts. -/
theorem count_grants_concat {lo hi : ℕ} {a : Arrival ℕ} (hlo : lo ≤ a.time) (hhi : a.time ≤ hi) (log : List Note)
    (i : ℕ) : (grants lo hi (log ++ [.admission i a])).count i = (grants lo hi log).count i + 1 := by
  have hone : grants lo hi [.admission i a] = [i] := by simp [grants, admissions, hlo, hhi]
  rw [grants_append, hone, List.count_append, List.count_singleton_self]

/-- The clock reading a caller holds. -/
def reading? : RateLimiter.Pc → Option ℕ
  | .tryBarrier now | .tryTat now | .tryExchange now _ | .acquireExchange _ now => some now
  | _ => none

/-- When the slot of a sleeping caller comes due. -/
def due? : RateLimiter.Pc → Option ℕ
  | .acquireSleep now ns => some (now + ns)
  | _ => none

/-- The account of the caller `i` since `lo`, with `credit` requests to begin with: up to now, up to the
reading it holds, and with the request it has been let through for. -/
structure Balanced (lo credit i : ℕ) (s : Timed State) (log : List Note) : Prop where
  sent : (senders log).count i ≤ (grants lo s.now log).count i + credit
  reading (n : ℕ) (h : reading? (s.state.limiter.threads i) = some n) :
    lo ≤ n ∧ n ≤ s.now ∧ (senders log).count i ≤ (grants lo n log).count i + credit
  due (n : ℕ) (h : due? (s.state.limiter.threads i) = some n) :
    (senders log).count i + 1 ≤ (grants lo n log).count i + credit
  admitted (att : Attempt) (h : s.state.callers i = .admitted att) :
    (senders log).count i + 1 ≤ (grants lo s.now log).count i + credit

/-- A caller that is still on the way to its first request since the window began. -/
structure OnTheWay (lag : Finset ℕ) (i : ℕ) (s : Timed State) (log : List Note) : Prop where
  mem : i ∈ lag
  engaged : (s.state.callers i).Engaged
  nothing : (senders log).count i = 0

/-- One request on credit for each of those callers. -/
def credit (lag : Finset ℕ) (i : ℕ) : ℕ := if i ∈ lag then 1 else 0

variable {lo c : ℕ} {log : List Note} {lag : Finset ℕ}

/-- A reading is the one held before, or a new one. -/
theorem reading_of_advance {rl rl' : RateLimiter} {now n : ℕ} {lucky : Bool} {pc pc' : RateLimiter.Pc}
    (h : rl.advance now lucky pc = some (rl', pc')) (hn : reading? pc' = some n) :
    n = now ∨ reading? pc = some n := by
  cases pc <;> simp only [RateLimiter.advance, Option.some.injEq, Prod.mk.injEq, reduceCtorEq] at h
  case tryClock | acquireNow =>
    rw [← h.2] at hn
    exact .inl (Option.some.inj hn).symm
  case tryTat =>
    rw [← h.2] at hn
    exact .inr hn
  case tryBarrier | acquireClock =>
    rw [← h.2] at hn
    split at hn
    · cases hn
    · exact .inr hn
  case notifyLoad =>
    rw [← h.2, RateLimiter.notifyTest] at hn
    split at hn <;> cases hn
  case notifyExchange =>
    split_ifs at h <;> obtain ⟨-, rfl⟩ := Prod.mk.inj (Option.some.inj h)
    · cases hn
    · rw [RateLimiter.notifyTest] at hn
      split at hn <;> cases hn
  case tryExchange | acquireExchange =>
    split_ifs at h <;> obtain ⟨-, rfl⟩ := Prod.mk.inj (Option.some.inj h) <;> first | exact .inr hn | cases hn
  all_goals rw [← h.2] at hn; cases hn

/-- The exchange of `acquire` admits for the time its sleep ends. -/
theorem admission_of_exchange {l : RateLimiter.State} {now tat n : ℕ} {lucky : Bool}
    (hpc : l.threads i = .acquireExchange tat n) (hcas : l.limiter.tat = tat ∧ lucky) :
    RateLimiter.admission l (.go i now lucky) =
      some ⟨max n (l.limiter.due (l.limiter.newTat tat n)), l.limiter.newTat tat n⟩ := by
  rw [RateLimiter.admission, hpc]
  exact if_pos hcas

/-- Who begins to sleep has been admitted, for the end of its sleep. -/
theorem admission_of_due {l : RateLimiter.State} {rl' : RateLimiter} {now n : ℕ} {lucky : Bool}
    {pc' : RateLimiter.Pc} (h : l.limiter.advance now lucky (l.threads i) = some (rl', pc'))
    (hn : due? pc' = some n) : ∃ n₀ a, reading? (l.threads i) = some n₀ ∧ n₀ ≤ n ∧
      RateLimiter.admission l (.go i now lucky) = some a ∧ a.time = n := by
  cases hpc : l.threads i <;> rw [hpc] at h <;>
    simp only [RateLimiter.advance, Option.some.injEq, Prod.mk.injEq, reduceCtorEq] at h
  -- the only access behind which a caller sleeps
  case acquireExchange tat n₀ =>
    split_ifs at h with hcas hsleep <;> obtain ⟨-, rfl⟩ := Prod.mk.inj (Option.some.inj h)
    · obtain rfl := Option.some.inj hn
      refine ⟨n₀, _, rfl, Nat.le_add_right _ _, admission_of_exchange hpc hcas, ?_⟩
      dsimp only
      rw [RateLimiter.sleepNs]
      split <;> omega
    · cases hn
    · cases hn
  case tryExchange =>
    split_ifs at h <;> obtain ⟨-, rfl⟩ := Prod.mk.inj (Option.some.inj h) <;> cases hn
  case tryBarrier | acquireClock =>
    rw [← h.2] at hn
    split at hn <;> cases hn
  case notifyLoad =>
    rw [← h.2, RateLimiter.notifyTest] at hn
    split at hn <;> cases hn
  case notifyExchange =>
    split_ifs at h <;> obtain ⟨-, rfl⟩ := Prod.mk.inj (Option.some.inj h)
    · cases hn
    · rw [RateLimiter.notifyTest] at hn
      split at hn <;> cases hn
  all_goals rw [← h.2] at hn; cases hn

/-- Who is let through has been admitted, just now or when it began to sleep. -/
theorem admission_of_admits {l : RateLimiter.State} {clock now : ℕ} {lucky : Bool}
    (h : RateLimiter.Admits l (.go i now lucky)) (hsleep : RateLimiter.SleepsOut ⟨l, clock⟩ (.go i now lucky)) :
    (∃ n a, reading? (l.threads i) = some n ∧ RateLimiter.admission l (.go i now lucky) = some a ∧ a.time = n) ∨
      ∃ n, due? (l.threads i) = some n ∧ n ≤ now := by
  rw [RateLimiter.Admits] at h
  rw [RateLimiter.SleepsOut] at hsleep
  dsimp only at hsleep
  cases hpc : l.threads i <;> rw [hpc] at h hsleep
  case tryExchange n tat =>
    obtain ⟨htest, hcas⟩ := h
    refine .inl ⟨n, ⟨n, l.limiter.newTat tat n⟩, rfl, ?_, rfl⟩
    rw [RateLimiter.admission, hpc]
    exact (if_neg (Nat.not_lt_of_le htest)).trans (if_pos hcas)
  case acquireExchange tat n =>
    obtain ⟨htat, hlucky, hsleepNs⟩ := h
    refine .inl ⟨n, _, rfl, admission_of_exchange hpc ⟨htat, hlucky⟩, ?_⟩
    rw [RateLimiter.sleepNs] at hsleepNs
    dsimp only
    split at hsleepNs <;> omega
  -- let through at the end of a sleep, for which it was admitted when it began
  case acquireSleep n ns => exact .inr ⟨n + ns, rfl, hsleep⟩
  all_goals exact h.elim

/-- What a caller has is kept while the others move. -/
theorem Balanced.congr (h : Balanced lo c i s log) (hthread : t.state.limiter.threads i = s.state.limiter.threads i)
    (hcaller : t.state.callers i = s.state.callers i) (hle : s.now ≤ t.now) {more : List Note}
    (hmore : (senders more).count i = 0) : Balanced lo c i t (log ++ more) := by
  have hsent : (senders (log ++ more)).count i = (senders log).count i := by
    rw [senders_append, List.count_append, hmore, Nat.add_zero]
  have hgrants : ∀ {n n'}, n ≤ n' → (grants lo n log).count i ≤ (grants lo n' (log ++ more)).count i :=
    fun hn ↦ count_grants_mono lo hn log more i
  refine ⟨?_, fun n hn ↦ ?_, fun n hn ↦ ?_, fun att hatt ↦ ?_⟩ <;> rw [hsent]
  · exact h.sent.trans (Nat.add_le_add_right (hgrants hle) _)
  · obtain ⟨hlo, hnow, hcount⟩ := h.reading n (hthread ▸ hn)
    exact ⟨hlo, hnow.trans hle, hcount.trans (Nat.add_le_add_right (hgrants le_rfl) _)⟩
  · exact (h.due n (hthread ▸ hn)).trans (Nat.add_le_add_right (hgrants le_rfl) _)
  · exact (h.admitted att (hcaller ▸ hatt)).trans (Nat.add_le_add_right (hgrants hle) _)

/-- Whoever holds nothing and is about to send nothing only has its requests to account for. -/
theorem balanced_of_sent (hsent : (senders log).count i ≤ (grants lo s.now log).count i + c)
    (hreading : reading? (s.state.limiter.threads i) = none) (hdue : due? (s.state.limiter.threads i) = none)
    (hstage : ∀ att, s.state.callers i ≠ .admitted att) : Balanced lo c i s log where
  sent := hsent
  reading n h := absurd (hreading.symm.trans h) (by simp)
  due n h := absurd (hdue.symm.trans h) (by simp)
  admitted att h := absurd h (hstage att)

theorem note_eq_none (ha : a.time? = none) : note s a = none := by
  cases a <;> first | rfl | cases ha

/-- A call begins with neither a reading of the clock nor a sleep. -/
theorem reading_enter (rl : RateLimiter) (c : RateLimiter.Call) :
    reading? (rl.enter c) = none ∧ due? (rl.enter c) = none := by
  cases c <;> rw [RateLimiter.enter]
  case notifyRateLimited => exact ⟨rfl, rfl⟩
  all_goals split <;> exact ⟨rfl, rfl⟩

theorem senders_note_go (s : Timed State) (i now : ℕ) (lucky : Bool) :
    senders (note s (.go i now lucky)).toList = [] := by
  rw [note]
  rcases RateLimiter.admission s.state.limiter (.go i now lucky) with - | a <;> rfl

/-- A caller that gives back nothing stands at no place it could have been let through from. -/
theorem not_idle_of_advance {rl rl' : RateLimiter} {now : ℕ} {lucky : Bool} {pc pc' : RateLimiter.Pc}
    (h : rl.advance now lucky pc = some (rl', pc')) : pc ≠ .idle := by
  rintro rfl
  cases h

/-- The caller that moves inside the limiter. -/
theorem Balanced.go {lucky : Bool} (h : Balanced lo c i s log) (hs : Coherent s) (hlo : lo ≤ s.now)
    (hle : s.now ≤ t.now) (hsleep : RateLimiter.SleepsOut (inside s) (.go i t.now lucky))
    (hlimiter : RateLimiter.clocked.step (inside s) (.go i t.now lucky) = some (inside t))
    (hcallers : t.state.callers = if t.state.limiter.threads i = .idle then Function.update s.state.callers i
        (returned policy (RateLimiter.Admits s.state.limiter (.go i t.now lucky)) (s.state.callers i))
        else s.state.callers) :
    Balanced lo c i t (log ++ (note s (.go i t.now lucky)).toList) := by
  obtain ⟨pc', hadv, hthreads⟩ := advance_of_go hlimiter
  have hpc' : t.state.limiter.threads i = pc' := by rw [hthreads, Function.update_self]
  have hsent : (senders (log ++ (note s (.go i t.now lucky)).toList)).count i = (senders log).count i := by
    rw [senders_append, senders_note_go, List.append_nil]
  have hgrants : ∀ {n n'}, n ≤ n' → (grants lo n log).count i ≤
      (grants lo n' (log ++ (note s (.go i t.now lucky)).toList)).count i := fun hn ↦ count_grants_mono lo hn log _ i
  -- An admission pays for the request it is for.
  have hpaid : ∀ {n n' : ℕ} {a : Arrival ℕ}, reading? (s.state.limiter.threads i) = some n → n ≤ a.time → a.time ≤ n' →
      RateLimiter.admission s.state.limiter (.go i t.now lucky) = some a →
      (senders log).count i + 1 ≤ (grants lo n' (log ++ (note s (.go i t.now lucky)).toList)).count i + c := by
    intro n n' a hn hna han' hadm
    obtain ⟨hlon, -, hcount⟩ := h.reading n hn
    have hbefore := count_grants_mono lo (hna.trans han') log [] i
    rw [List.append_nil] at hbefore
    rw [note, hadm]
    change _ ≤ (grants lo n' (log ++ [.admission i a])).count i + c
    rw [count_grants_concat (hlon.trans hna) han']
    omega
  refine ⟨?_, fun n hn ↦ ?_, fun n hn ↦ ?_, fun att hatt ↦ ?_⟩ <;> rw [hsent]
  · exact h.sent.trans (Nat.add_le_add_right (hgrants hle) _)
  · rw [hpc'] at hn
    obtain rfl | hn := reading_of_advance hadv hn
    · exact ⟨hlo.trans hle, le_rfl, h.sent.trans (Nat.add_le_add_right (hgrants hle) _)⟩
    · obtain ⟨hlon, hnow, hcount⟩ := h.reading n hn
      exact ⟨hlon, hnow.trans hle, hcount.trans (Nat.add_le_add_right (hgrants le_rfl) _)⟩
  · rw [hpc'] at hn
    obtain ⟨n₀, a, hn₀, hle₀, hadm, rfl⟩ := admission_of_due hadv hn
    exact hpaid hn₀ hle₀ le_rfl hadm
  · have hold : ∀ {att}, s.state.callers i ≠ .admitted att := fun hstage ↦ by
      have hidle := hs.holds i
      rw [hstage] at hidle
      exact not_idle_of_advance hadv hidle
    rw [hcallers] at hatt
    split at hatt
    case isFalse => exact absurd hatt hold
    case isTrue =>
      rw [Function.update_self] at hatt
      obtain hgranted := (granted_or_of_returned hatt).resolve_right hold
      obtain ⟨n, a, hn, hadm, rfl⟩ | ⟨n, hn, hnow⟩ := admission_of_admits hgranted hsleep
      · obtain ⟨-, hnow, -⟩ := h.reading _ hn
        exact hpaid hn le_rfl (hnow.trans hle) hadm
      · exact (h.due n hn).trans (Nat.add_le_add_right (hgrants hnow) _)

/-- **The admissions stay paced**, whatever the callers do around the limiter. -/
theorem paced_step {interval burst : ℕ} (hle : interval ≤ burst) (hs : Coherent s)
    (hpaced : RateLimiter.PacedBy interval burst s.state.limiter (arrivals log)) (hC : Disciplined s a)
    (h : (clocked policy).step s a = some t) :
    RateLimiter.PacedBy interval burst t.state.limiter (arrivals (log ++ (note s a).toList)) := by
  cases move_of_step hs.limiter.enabled h with
  | call c stage hquiet hlimiter =>
    have hkept := hpaced.step hle (a := .call a.caller c) trivial (Machine.timed_step_eq_some.1 hlimiter).1
    rw [note_eq_none hquiet, Option.toList_none, List.append_nil]
    exact List.append_nil (arrivals log) ▸ hkept
  | go i lucky hlimiter =>
    have hlog : arrivals (note s (.go i t.now lucky)).toList =
        (RateLimiter.admission s.state.limiter (.go i t.now lucky)).toList := by
      rw [note]
      rcases RateLimiter.admission s.state.limiter (.go i t.now lucky) with - | a <;> rfl
    rw [arrivals_append, hlog]
    exact hpaced.step hle hC.1 (Machine.timed_step_eq_some.1 hlimiter).1
  | send i att hlimiter =>
    rw [arrivals_append, hlimiter]
    exact (List.append_nil (arrivals log)).symm ▸ hpaced
  | settle att stage hquiet hlimiter =>
    rw [note_eq_none hquiet, Option.toList_none, List.append_nil, hlimiter]
    exact hpaced

/-- A caller outside the limiter holds neither a reading nor a slot. -/
theorem balanced_of_idle (hsent : (senders log).count i ≤ (grants lo s.now log).count i + c)
    (hidle : s.state.limiter.threads i = .idle) (hstage : ∀ att, s.state.callers i ≠ .admitted att) :
    Balanced lo c i s log :=
  balanced_of_sent hsent (by rw [hidle]; rfl) (by rw [hidle]; rfl) hstage

section Accounts

variable (htally : OnTheWay lag i s log ∨ Balanced lo (credit lag i) i s log)

include htally

/-- What a caller has sent stays accounted for. -/
theorem sent_le_of_tally {n : ℕ} (hn : s.now ≤ n) (more : List Note) :
    (senders log).count i ≤ (grants lo n (log ++ more)).count i + credit lag i := by
  obtain hway | hbalanced := htally
  · exact hway.nothing ▸ Nat.zero_le _
  · exact hbalanced.sent.trans (Nat.add_le_add_right (count_grants_mono lo hn log more i) _)

/-- The account of a caller that does not move is kept. -/
theorem tally_of_unmoved (hthread : t.state.limiter.threads i = s.state.limiter.threads i)
    (hcaller : t.state.callers i = s.state.callers i) (hle : s.now ≤ t.now) {more : List Note}
    (hmore : (senders more).count i = 0) :
    OnTheWay lag i t (log ++ more) ∨ Balanced lo (credit lag i) i t (log ++ more) := by
  refine htally.imp (fun hway ↦ ⟨hway.mem, hcaller ▸ hway.engaged, ?_⟩)
    fun hbalanced ↦ hbalanced.congr hthread hcaller hle hmore
  rw [senders_append, List.count_append, hway.nothing, hmore]

/-- A request is paid for by the admission it was let through with, or it goes on credit. -/
theorem balanced_of_send {att : Attempt} (hadmitted : s.state.callers i = .admitted att) (hle : s.now ≤ t.now)
    (hidle : t.state.limiter.threads i = .idle) (hstage : ∀ att, t.state.callers i ≠ .admitted att) :
    Balanced lo (credit lag i) i t (log ++ [.request i]) := by
  refine balanced_of_idle ?_ hidle hstage
  have hone : (senders (log ++ [.request i])).count i = (senders log).count i + 1 := by
    rw [senders_append, List.count_append]
    exact congrArg _ List.count_singleton_self
  have hmono := count_grants_mono lo hle log [.request i] i
  rw [hone]
  obtain hway | hbalanced := htally
  · rw [hway.nothing, credit, if_pos hway.mem]
    exact Nat.le_add_left _ _
  · exact (hbalanced.admitted _ hadmitted).trans (Nat.add_le_add_right hmono _)

end Accounts

/-- A caller on the way goes on, or leaves the limiter with nothing sent. -/
theorem OnTheWay.go {lucky : Bool} (hway : OnTheWay lag i s log)
    (hcallers : t.state.callers = if t.state.limiter.threads i = .idle then Function.update s.state.callers i
        (returned policy (RateLimiter.Admits s.state.limiter (.go i t.now lucky)) (s.state.callers i))
        else s.state.callers) :
    OnTheWay lag i t (log ++ (note s (.go i t.now lucky)).toList) ∨
      Balanced lo (credit lag i) i t (log ++ (note s (.go i t.now lucky)).toList) := by
  have hnothing : (senders (log ++ (note s (.go i t.now lucky)).toList)).count i = 0 := by
    rw [senders_append, senders_note_go, List.append_nil, hway.nothing]
  by_cases hengaged : (t.state.callers i).Engaged
  · exact .inl ⟨hway.mem, hengaged, hnothing⟩
  · have hidle : t.state.limiter.threads i = .idle := by
      by_contra hne
      rw [hcallers, if_neg hne] at hengaged
      exact hengaged hway.engaged
    exact .inr (balanced_of_idle (hnothing ▸ Nat.zero_le _) hidle fun att hatt ↦ hengaged (hatt ▸ trivial))

/-- The account of every caller is kept. -/
theorem tally_step (hs : Coherent s) (hlo : lo ≤ s.now) (hC : Disciplined s a)
    (h : (clocked policy).step s a = some t)
    (htally : ∀ i, OnTheWay lag i s log ∨ Balanced lo (credit lag i) i s log) (i : ℕ) :
    OnTheWay lag i t (log ++ (note s a).toList) ∨ Balanced lo (credit lag i) i t (log ++ (note s a).toList) := by
  have hle : s.now ≤ t.now := (Machine.timed_step_eq_some.1 h).2.2
  have hsent := sent_le_of_tally (htally i) hle (note s a).toList
  cases move_of_step hs.limiter.enabled h with
  | call c stage hquiet hlimiter hcallers hstage =>
    obtain ⟨-, -, -, hthreads⟩ := enter_of_call hlimiter
    rcases eq_or_ne i a.caller with rfl | hne
    · obtain ⟨hreading, hdue⟩ := reading_enter s.state.limiter.limiter c
      refine .inr (balanced_of_sent ?_ ?_ ?_ fun att ↦ ?_)
      · rw [note_eq_none hquiet, Option.toList_none, List.append_nil] at hsent ⊢
        exact hsent
      · rwa [hthreads, Function.update_self]
      · rwa [hthreads, Function.update_self]
      · rw [hcallers, Function.update_self]
        obtain ⟨_, -, rfl⟩ | ⟨-, _, rfl⟩ := hstage <;> simp
    · exact tally_of_unmoved (htally i) (by rw [hthreads, Function.update_of_ne hne])
        (by rw [hcallers, Function.update_of_ne hne]) hle (by rw [note_eq_none hquiet]; rfl)
  | settle att stage hquiet hlimiter hnow hawaiting hcallers hstage =>
    rcases eq_or_ne i a.caller with rfl | hne
    · have hidle := hs.holds a.caller
      rw [hawaiting] at hidle
      refine .inr (balanced_of_idle ?_ (hlimiter ▸ hidle) fun att ↦ ?_)
      · rw [note_eq_none hquiet, Option.toList_none, List.append_nil] at hsent ⊢
        exact hsent
      · rw [hcallers, Function.update_self]
        obtain rfl | rfl := hstage <;> simp
    · exact tally_of_unmoved (htally i) (by rw [hlimiter]) (by rw [hcallers, Function.update_of_ne hne]) hle
        (by rw [note_eq_none hquiet]; rfl)
  | send j att hlimiter hnow hadmitted hcallers =>
    rcases eq_or_ne i j with rfl | hne
    · have hidle := hs.holds i
      rw [hadmitted] at hidle
      refine .inr (balanced_of_send (htally i) hadmitted hnow (hlimiter ▸ hidle) fun att ↦ ?_)
      rw [hcallers, Function.update_self]
      simp
    · exact tally_of_unmoved (htally i) (by rw [hlimiter]) (by rw [hcallers, Function.update_of_ne hne]) hle
        (List.count_singleton.trans (if_neg (by simpa using hne.symm)))
  | go j lucky hlimiter hcallers =>
    obtain ⟨pc', hadv, hthreads⟩ := advance_of_go hlimiter
    rcases eq_or_ne i j with rfl | hne
    · obtain hway | hbalanced := htally i
      · exact hway.go hcallers
      · exact .inr (hbalanced.go hs hlo hle hC.2 hlimiter hcallers)
    · refine tally_of_unmoved (htally i) (by rw [hthreads, Function.update_of_ne hne]) ?_ hle
        (by rw [senders_note_go]; rfl)
      rw [hcallers]
      split
      · rw [Function.update_of_ne hne]
      · rfl

/-- The invariant of a window that began at `lo`, with the callers of `lag` on the way to a request. -/
structure Tallied (interval burst lo : ℕ) (lag : Finset ℕ) (s : Timed State) (log : List Note) : Prop where
  coherent : Coherent s
  lo_le : lo ≤ s.now
  paced : RateLimiter.PacedBy interval burst s.state.limiter (arrivals log)
  tally (i : ℕ) : OnTheWay lag i s log ∨ Balanced lo (credit lag i) i s log

/-- A step of the clients keeps the tallies of all callers. -/
theorem Tallied.step {interval burst : ℕ} (hle : interval ≤ burst) (hs : Tallied interval burst lo lag s log)
    (hC : Disciplined s a) (h : (clocked policy).step s a = some t) :
    Tallied interval burst lo lag t (log ++ (note s a).toList) where
  coherent := hs.coherent.step h
  lo_le := hs.lo_le.trans (Machine.timed_step_eq_some.1 h).2.2
  paced := paced_step hle hs.coherent hs.paced hC h
  tally := tally_step hs.coherent hs.lo_le hC h hs.tally

/-- At any time the requests are at most the admissions for times that have come, and the requests on
credit. -/
theorem Tallied.length_senders_le {interval burst : ℕ} (h : Tallied interval burst lo lag s log) :
    (senders log).length ≤ (grants lo s.now log).length + lag.card := by
  have hsub : (senders log).Subperm (grants lo s.now log ++ lag.toList) := by
    refine List.subperm_ext_iff.2 fun i _ ↦ ?_
    have hlag : lag.toList.count i = credit lag i := by
      simp only [credit, lag.nodup_toList.count, Finset.mem_toList]
    rw [List.count_append, hlag]
    obtain hway | hbalanced := h.tally i
    · exact hway.nothing ▸ Nat.zero_le _
    · exact hbalanced.sent
  simpa using hsub.length_le

/-- Whoever is not on the way to a request holds neither a reading nor a slot. -/
theorem reading_of_not_engaged (hs : Coherent s) (h : ¬(s.state.callers i).Engaged) :
    reading? (s.state.limiter.threads i) = none ∧ due? (s.state.limiter.threads i) = none := by
  have hold := hs.holds i
  generalize s.state.limiter.threads i = pc at hold ⊢
  generalize s.state.callers i = stage at hold h
  cases stage with
  | admitting att => exact absurd trivial h
  | notifying att => cases pc <;> first | exact ⟨rfl, rfl⟩ | exact hold.elim
  | _ =>
    obtain rfl : pc = .idle := hold
    exact ⟨rfl, rfl⟩

/-- A window begins with the admissions so far, and no requests. -/
theorem tallied_of_paced {interval burst : ℕ} (hs : Coherent s)
    (hpaced : RateLimiter.PacedBy interval burst s.state.limiter (arrivals log))
    (hlag : ∀ i, (s.state.callers i).Engaged → i ∈ lag) :
    Tallied interval burst s.now lag s ((admissions log).map fun x ↦ .admission x.1 x.2) := by
  have hsenders : senders ((admissions log).map fun x ↦ .admission x.1 x.2) = [] := by
    rw [senders, List.filterMap_map]
    exact List.filterMap_eq_nil_iff.2 fun _ _ ↦ rfl
  have harrivals : arrivals ((admissions log).map fun x ↦ .admission x.1 x.2) = arrivals log := by
    rw [arrivals, admissions, List.filterMap_map]
    exact congrArg _ List.filterMap_some
  refine ⟨hs, le_rfl, harrivals ▸ hpaced, fun i ↦ ?_⟩
  by_cases hengaged : (s.state.callers i).Engaged
  · -- on the way: one request on credit
    exact .inl ⟨hlag i hengaged, hengaged, by rw [hsenders]; rfl⟩
  · -- not on the way: its requests are still to be admitted, in the window
    obtain ⟨hreading, hdue⟩ := reading_of_not_engaged hs hengaged
    refine .inr (balanced_of_sent (by rw [hsenders]; exact Nat.zero_le _) hreading hdue fun att hatt ↦ ?_)
    exact hengaged (hatt ▸ trivial)

/-- The requests of a run are its labels. -/
theorem senders_trace (h : (clocked policy).RunsUnder Disciplined s as u) :
    senders ((clocked policy).trace note s as) = as.filterMap Action.sender? := by
  induction as generalizing s with
  | nil => rfl
  | cons a as ih =>
    obtain ⟨-, t, hstep, hrun⟩ := h
    rw [Machine.trace, hstep]
    dsimp only
    rw [senders_append, ih hrun]
    cases a with
    | go i now lucky => rw [senders_note_go]; rfl
    | _ => rfl

/-- **The server sees no more than the limiter lets through, but for those that are late.** In every run,
between two of its states, the requests cost at most the time between them and the burst window, and one
interval for each caller that was on the way to a request at the first of them. -/
theorem requests_in_window {requestsPerMinute burst : UInt32} {clock₀ : ℕ} (hrate : 1 ≤ requestsPerMinute)
    (hfit : RateLimiter.computeInterval requestsPerMinute *
      RateLimiter.effectiveBurst requestsPerMinute burst < 2 ^ 64)
    (hbefore : (clocked policy).RunsUnder Disciplined
      ⟨start (RateLimiter.new requestsPerMinute burst), clock₀⟩ as t)
    (hrun : (clocked policy).RunsUnder Disciplined t bs u) {lag : Finset ℕ}
    (hlag : ∀ i, (t.state.callers i).Engaged → i ∈ lag) :
    (bs.filterMap Action.sender?).length * (RateLimiter.new requestsPerMinute burst).intervalNs ≤
      (u.now - t.now) + (RateLimiter.new requestsPerMinute burst).burstNs +
        lag.card * (RateLimiter.new requestsPerMinute burst).intervalNs := by
  have hle := RateLimiter.interval_le_burst hrate hfit
  set rl := RateLimiter.new requestsPerMinute burst with hrl
  obtain ⟨ht, hpaced⟩ : Coherent t ∧ RateLimiter.PacedBy rl.intervalNs rl.burstNs t.state.limiter
      (arrivals ([] ++ (clocked policy).trace note ⟨start rl, clock₀⟩ as)) :=
    hbefore.invariant_trace (P := fun s log ↦ Coherent s ∧
        RateLimiter.PacedBy rl.intervalNs rl.burstNs s.state.limiter (arrivals log))
      (fun s a t log h hC hstep ↦ ⟨h.1.step hstep, paced_step hle h.1 h.2 hC hstep⟩)
      ⟨coherent_start hrate clock₀, rfl, rfl, Paced.nil, by simp [arrivals, admissions]⟩
  have hstart := tallied_of_paced ht hpaced hlag
  generalize (admissions _).map (fun x : ℕ × Arrival ℕ ↦ Note.admission x.1 x.2) = log at hstart
  have hu : Tallied rl.intervalNs rl.burstNs t.now lag u (log ++ (clocked policy).trace note t bs) :=
    hrun.invariant_trace (fun _ _ _ _ h hC hstep ↦ h.step hle hC hstep) hstart
  have hrequests : (bs.filterMap Action.sender?).length ≤
      (grants t.now u.now (log ++ (clocked policy).trace note t bs)).length + lag.card := by
    refine le_trans ?_ hu.length_senders_le
    rw [senders_append, senders_trace hrun, List.length_append]
    exact Nat.le_add_left _ _
  have hwindow := hu.paced.paced.length_smul_le (s := t.now) (w := u.now - t.now) (Nat.zero_le _)
  rw [Nat.add_sub_cancel' hu.lo_le, ← length_grants, smul_eq_mul] at hwindow
  calc (bs.filterMap Action.sender?).length * rl.intervalNs
      ≤ ((grants t.now u.now (log ++ (clocked policy).trace note t bs)).length + lag.card) * rl.intervalNs :=
        Nat.mul_le_mul_right _ hrequests
    _ = (grants t.now u.now (log ++ (clocked policy).trace note t bs)).length * rl.intervalNs +
          lag.card * rl.intervalNs := Nat.add_mul _ _ _
    _ ≤ (u.now - t.now) + rl.burstNs + lag.card * rl.intervalNs := Nat.add_le_add_right hwindow _

/-! ### Two callers

A thread is admitted, and a coroutine gets a 429 before the thread has sent its request. -/

/-- `acquire` by a caller that finds no barrier, all at one time. -/
def acquireAt (i now : ℕ) : List Action :=
  [.enter i .blocking, .go i now true, .go i now true, .go i now true, .go i now true, .go i now true]

/-- Up to the 429. -/
def rejected : List Action := acquireAt 0 4 ++ [.enter 1 .coroutine, .go 1 5 true, .go 1 5 true, .go 1 5 true,
  .go 1 5 true, .send 1 6, .answer 1 false 429]

/-- The notification, which reads the clock at 9. -/
def notification : List Action := [.go 1 9 true, .go 1 9 true, .go 1 9 true]

/-- The thread sends its request, and the coroutine asks again, in vain. -/
def afterwards : List Action := [.send 0 20, .retry 1, .go 1 21 true, .go 1 21 true]

/-- The state behind some labels, for a client of one request a second and a burst of two. -/
def behind (as : List Action) : Timed State := (clocked {}).after ⟨start (RateLimiter.new 60 2), 0⟩ as

/-- Two callers within one window, from its start. -/
theorem requests_in_window_two :
    ((rejected ++ notification ++ afterwards).filterMap Action.sender?).length *
        (RateLimiter.new 60 2).intervalNs ≤
      ((behind (rejected ++ notification ++ afterwards)).now - 0) + (RateLimiter.new 60 2).burstNs +
        (∅ : Finset ℕ).card * (RateLimiter.new 60 2).intervalNs :=
  requests_in_window (by decide) (by decide) (Machine.runsUnder_nil.2 rfl)
    (Machine.runsUnder_of_check (by decide +kernel)) fun _ h ↦ h.elim

/-- Two callers, behind the barrier that one of them has put up. -/
theorem requests_behind_barrier_two :
    (∀ j, afterwards.countP (·.isEarly (9 + 1000000000) j) ≤ 1) ∧
      (∀ j, ((behind (rejected ++ notification)).state.limiter.threads j).BeforeBarrier →
        (∀ att, (behind (rejected ++ notification)).state.callers j ≠ .admitted att) →
          afterwards.countP (·.isEarly (9 + 1000000000) j) = 0) ∧
      afterwards.countP (·.isEarly (9 + 1000000000) 1) = 0 := by
  have hnotify : Notifies {} (behind rejected) 1 9 notification (behind (rejected ++ notification)) := {
    entered := by decide +kernel
    reading := ⟨true, _, rfl⟩
    steps := by simp [notification, Action.time?]
    run := (Machine.runsUnder_after (C := Disciplined) (by decide +kernel)).run_eq
    returned := by decide +kernel }
  exact requests_behind_barrier (by decide)
    (Machine.runsUnder_of_check (C := Disciplined) (by decide +kernel)).run_eq hnotify (by decide)
    (Machine.runsUnder_after (C := Disciplined) (by decide +kernel)).run_eq

end Callers

end Alpaca
