import AlpacaCpp.Limiter.Barrier
import Mathlib.Order.Bounds.Defs

/-!
# No notification is lost

`notify_rate_limited` is a loop of compare-exchanges that takes the maximum of `blocked_until_` and a
value of its own. A failed exchange reloads the value the loop tests, so the loop gives up only on a
barrier that is already as far out. **The barrier is the maximum of what it was at first and of
everything notified** (`isGreatest_blockedUntil`), whatever order the atomic accesses of any number of
threads come in and whichever exchanges fail spuriously.

What carries the induction is that every notified value is accounted for: it is in the barrier, or a
thread still has it in hand (`Tallied`).

The clock readings are those of a signed 64-bit count, as `steady_clock` has them. With that no sum wraps,
however many seconds a notification asks for, because they are an unsigned 32-bit number.
-/

namespace Alpaca

namespace RateLimiter

open Machine

/-- Inside `notify_rate_limited`. -/
def Pc.Notifying : Pc → Prop
  | .notifyClock _ | .notifyLoad _ | .notifyExchange _ _ => True
  | _ => False

/-- The barrier a thread has in hand. -/
def Pc.carried : Pc → Option ℕ
  | .notifyLoad untilNs | .notifyExchange untilNs _ => some untilNs
  | _ => none

/-- The barrier an access asks for: a clock reading plus `retry_after_seconds`. -/
def Pc.notified (now : ℕ) : Pc → Option ℕ
  | .notifyClock r => some (now + r.toNat * 1000000000)
  | _ => none

/-- The barrier a step asks for. -/
def notification (s : State) : Action → Option ℕ
  | .call _ _ => none
  | .go i now _ => (s.threads i).notified now

variable {rl rl' : RateLimiter} {now clock bound v : ℕ} {lucky : Bool} {pc pc' : Pc}
  {s t u : State} {a : Action} {as bs : List Action} {log : List ℕ} {i j : ℕ} {asked : Option ℕ}

/-! ### One access

An access of a notification either ends it, with its value in the barrier, or goes on with the same value
in hand. An access of another function does not touch the barrier. -/

/-- A notification goes on until its thread is done with it. -/
theorem notifying_advance (hpc : pc.Notifying) (h : rl.advance now lucky pc = some (rl', pc')) :
    pc' = .idle ∨ pc'.Notifying := by
  have htest : ∀ untilNs current, notifyTest untilNs current = .idle ∨
      (notifyTest untilNs current).Notifying := by
    intro untilNs current
    rw [notifyTest]
    split
    · exact .inr trivial
    · exact .inl rfl
  cases pc
  case notifyClock r =>
    obtain ⟨-, rfl⟩ := Prod.mk.inj (Option.some.inj h)
    exact .inr trivial
  case notifyLoad untilNs =>
    obtain ⟨-, rfl⟩ := Prod.mk.inj (Option.some.inj h)
    exact htest _ _
  case notifyExchange untilNs current =>
    rw [advance] at h
    split_ifs at h <;> obtain ⟨-, rfl⟩ := Prod.mk.inj (Option.some.inj h)
    · exact .inl rfl
    · exact htest _ _
  all_goals exact hpc.elim

/-- No access begins one: that is a call. -/
theorem notifying_of_advance (h : rl.advance now lucky pc = some (rl', pc')) (hpc' : pc'.Notifying) :
    pc.Notifying := by
  cases pc <;> simp only [advance, Option.some.injEq, Prod.mk.injEq, reduceCtorEq] at h
  case notifyClock | notifyLoad | notifyExchange => trivial
  case tryBarrier | acquireClock =>
    rw [← h.2] at hpc'
    split at hpc' <;> exact hpc'.elim
  case tryExchange | acquireExchange =>
    split_ifs at h <;> obtain ⟨-, rfl⟩ := Prod.mk.inj (Option.some.inj h) <;> exact hpc'.elim
  all_goals exact (h.2 ▸ hpc').elim

/-- What one access does to the value its thread has in hand, and to the barrier. -/
structure Handles (pc pc' : Pc) (barrier barrier' : ℕ) (asked : Option ℕ) : Prop where
  le : barrier ≤ barrier'
  keeps : ∀ v ∈ pc.carried, v ≤ barrier' ∨ v ∈ pc'.carried
  takes : ∀ v ∈ asked, v ∈ pc'.carried
  source : ∀ v ∈ pc'.carried, v ∈ pc.carried ∨ v ∈ asked
  stores : barrier' = barrier ∨ barrier' ∈ pc.carried

/-- An access that has nothing to do with notifications. -/
theorem Handles.of_none {barrier barrier' : ℕ} (hbarrier : barrier' = barrier)
    (hpc : pc.carried = none) (hpc' : pc'.carried = none) : Handles pc pc' barrier barrier' none where
  le := hbarrier.ge
  keeps v hv := by simp [hpc] at hv
  takes v hv := by simp at hv
  source v hv := by simp [hpc'] at hv
  stores := .inl hbarrier

theorem carried_enter (c : Call) : (rl.enter c).carried = none := by
  cases c
  case notifyRateLimited r => rfl
  all_goals rw [enter]; split <;> rfl

/-- The loop test lets go of a value only when the barrier it has seen is as far out. -/
theorem Handles.notifyTest {untilNs barrier : ℕ} (hpc : pc.carried = some untilNs) :
    Handles pc (notifyTest untilNs barrier) barrier barrier none := by
  unfold RateLimiter.notifyTest
  split
  case isTrue =>
    exact ⟨le_rfl, fun v hv ↦ .inr (hpc ▸ hv : v ∈ some untilNs), fun v hv ↦ by simp at hv,
      fun v hv ↦ .inl (hpc.symm ▸ hv), .inl rfl⟩
  case isFalse hle =>
    refine ⟨le_rfl, fun v hv ↦ .inl ?_, fun v hv ↦ by simp at hv, fun v hv ↦ by simp [Pc.carried] at hv,
      .inl rfl⟩
    obtain rfl := Option.some.inj (hpc.symm.trans hv)
    exact Nat.le_of_not_lt hle

/-- **One access.** -/
theorem handles_of_advance (hpc : pc.Sound clock) (hnow : now < 2 ^ 63)
    (h : rl.advance now lucky pc = some (rl', pc')) :
    Handles pc pc' rl.blockedUntil rl'.blockedUntil (pc.notified now) := by
  have hle := blockedUntil_le_of_advance hpc h
  cases pc <;> simp only [advance, Option.some.injEq, Prod.mk.injEq, reduceCtorEq] at h
  -- a value is notified when the clock is read, and is in hand from then on
  case notifyClock r =>
    obtain ⟨rfl, rfl⟩ := h
    have hfit : u64 (now + r.toNat * 1000000000) = now + r.toNat * 1000000000 :=
      u64_of_lt (by have := r.toNat_lt; omega)
    rw [hfit]
    exact ⟨hle, fun v hv ↦ by simp [Pc.carried] at hv, fun v hv ↦ hv, fun v hv ↦ .inr hv, .inl rfl⟩
  case notifyLoad untilNs =>
    obtain ⟨rfl, rfl⟩ := h
    exact Handles.notifyTest rfl
  case notifyExchange untilNs current =>
    split_ifs at h with hcas <;> obtain ⟨rfl, rfl⟩ := Prod.mk.inj (Option.some.inj h)
    · -- the exchange went through: the value in hand is in the barrier now
      refine ⟨hle, fun v hv ↦ .inl ?_, fun v hv ↦ by simp [Pc.notified] at hv,
        fun v hv ↦ by simp [Pc.carried] at hv, .inr rfl⟩
      exact (Option.some.inj hv).ge
    · exact Handles.notifyTest rfl
  case tryExchange | acquireExchange =>
    split_ifs at h <;> obtain ⟨rfl, rfl⟩ := Prod.mk.inj (Option.some.inj h) <;>
      exact Handles.of_none rfl rfl rfl
  all_goals
    obtain ⟨rfl, rfl⟩ := h
    exact Handles.of_none rfl rfl (by first | rfl | split <;> rfl)

/-! ### Every interleaving

The values that have been notified are those of the calls in the run. At the end no thread has one in
hand, and so each of them is in the barrier; and nothing else has been put there. -/

/-- Every notified value is accounted for: it is in the barrier, or a thread has it in hand. And neither
the barrier nor a thread has anything else. -/
structure Tallied (initial : ℕ) (s : State) (log : List ℕ) : Prop where
  sound : ∀ i, ∃ clock, (s.threads i).Sound clock
  carried : ∀ i, ∀ v ∈ (s.threads i).carried, v ∈ log
  barrier : s.limiter.blockedUntil ∈ initial :: log
  covered : ∀ v ∈ initial :: log,
    v ≤ s.limiter.blockedUntil ∨ ∃ i, v ∈ (s.threads i).carried

/-- At first no thread has anything in hand. -/
theorem tallied_start : Tallied rl.blockedUntil (start rl) [] where
  sound _ := ⟨0, trivial⟩
  carried i v hv := by simp [start, Pc.carried] at hv
  barrier := List.mem_singleton_self _
  covered v hv := .inl (List.mem_singleton.1 hv).le

/-- What one label does: one thread moves, and the barrier with it. -/
theorem handles_of_step (hs : ∀ i, ∃ clock, (s.threads i).Sound clock)
    (hclock : ∀ now ∈ a.time?, now < 2 ^ 63) (h : machine.step s a = some t) :
    ∃ i pc clock, t.threads = Function.update s.threads i pc ∧ pc.Sound clock ∧
      Handles (s.threads i) pc s.limiter.blockedUntil t.limiter.blockedUntil (notification s a) := by
  cases a with
  | call i c =>
    simp only [machine, step, Option.ite_none_right_eq_some, Option.some.injEq] at h
    obtain ⟨hidle, rfl⟩ := h
    exact ⟨i, _, 0, rfl, enter_sound c, Handles.of_none rfl (hidle ▸ rfl) (carried_enter c)⟩
  | go i now lucky =>
    obtain ⟨⟨rl', pc'⟩, hadv, rfl⟩ := Option.map_eq_some_iff.1 h
    obtain ⟨clock, hsound⟩ := hs i
    exact ⟨i, pc', now, rfl, advance_sound hadv,
      handles_of_advance hsound (hclock now rfl) hadv⟩

/-- **Step lemma.** -/
theorem Tallied.step {initial : ℕ} (hs : Tallied initial s log)
    (hclock : ∀ now ∈ a.time?, now < 2 ^ 63) (h : machine.step s a = some t) :
    Tallied initial t (log ++ (notification s a).toList) := by
  obtain ⟨i, pc, clock, hthreads, hsound, hpc⟩ := handles_of_step hs.sound hclock h
  have hcarried : ∀ v ∈ pc.carried, v ∈ log ++ (notification s a).toList := fun v hv ↦
    List.mem_append.2 ((hpc.source v hv).imp (hs.carried i v) Option.mem_toList.2)
  refine ⟨fun j ↦ ?_, fun j v hv ↦ ?_, ?_, fun v hv ↦ ?_⟩
  · rw [hthreads, Function.update_apply]
    split
    case isTrue => exact ⟨clock, hsound⟩
    case isFalse => exact hs.sound j
  · rw [hthreads, Function.update_apply] at hv
    split at hv
    case isTrue => exact hcarried v hv
    case isFalse => exact List.mem_append_left _ (hs.carried j v hv)
  · rw [← List.cons_append]
    rcases hpc.stores with heq | hstored
    · exact List.mem_append_left _ (heq ▸ hs.barrier)
    · exact List.mem_append_left _ (List.mem_cons_of_mem _ (hs.carried i _ hstored))
  · rw [← List.cons_append, List.mem_append, Option.mem_toList] at hv
    -- A value that is new, or that the thread held, is still in its hand or in the barrier.
    have hmoved : ∀ v ∈ pc.carried, ∃ j, v ∈ (t.threads j).carried := fun v hv ↦
      ⟨i, by rwa [hthreads, Function.update_self]⟩
    rcases hv with hold | hnew
    · rcases hs.covered v hold with hle | ⟨j, hj⟩
      · exact .inl (hle.trans hpc.le)
      · by_cases hji : j = i
        · exact (hpc.keeps v (hji ▸ hj)).imp_right (hmoved v)
        · exact .inr ⟨j, by rwa [hthreads, Function.update_of_ne hji]⟩
    · exact .inr (hmoved v (hpc.takes v hnew))

/-- When no thread has a value in hand any more, the barrier is the greatest of all. -/
theorem Tallied.isGreatest {initial : ℕ} (hs : Tallied initial s log)
    (hdone : ∀ i, (s.threads i).carried = none) :
    IsGreatest {v | v ∈ initial :: log} s.limiter.blockedUntil := by
  refine ⟨hs.barrier, fun v hv ↦ ?_⟩
  obtain hle | ⟨i, hi⟩ := hs.covered v hv
  · exact hle
  · simp [hdone i] at hi

theorem carried_of_not_notifying (h : ¬ pc.Notifying) : pc.carried = none := by
  cases pc
  case notifyClock | notifyLoad | notifyExchange => exact absurd trivial h
  all_goals rfl

/-- **Run lemma.** The values are accounted for, and the barrier has not come back. -/
theorem Tallied.run {initial : ℕ} (hs : Tallied initial s log)
    (hclock : ∀ a ∈ as, ∀ now ∈ a.time?, now < 2 ^ 63) (h : machine.run s as = some u) :
    Tallied initial u (log ++ machine.trace notification s as) ∧
      s.limiter.blockedUntil ≤ u.limiter.blockedUntil := by
  refine ((runsUnder_true_iff.2 h).and_forall hclock).invariant_trace
    (P := fun v log ↦ Tallied initial v log ∧ s.limiter.blockedUntil ≤ v.limiter.blockedUntil)
    (fun v a w log hv hC hstep ↦ ⟨hv.1.step hC.2 hstep, ?_⟩) ⟨hs, le_rfl⟩
  obtain ⟨i, pc, clock, -, -, hpc⟩ := handles_of_step hv.1.sound hC.2 hstep
  exact hv.2.trans hpc.le

/-- **No notification is lost.** Take any run of any number of threads, from any limiter. The barrier
never comes back on the way; and when no thread is inside `notify_rate_limited` any more, it is the
greatest of what it was at first and of the clock readings of all notifications with their
`retry_after_seconds` added. The clock is a signed count, so no sum leaves the word. -/
theorem isGreatest_blockedUntil (hclock : ∀ a ∈ as ++ bs, ∀ now ∈ a.time?, now < 2 ^ 63)
    (ht : machine.run (start rl) as = some t) (hu : machine.run t bs = some u) :
    t.limiter.blockedUntil ≤ u.limiter.blockedUntil ∧
      ((∀ i, ¬ (u.threads i).Notifying) →
        IsGreatest {v | v ∈ rl.blockedUntil :: machine.trace notification (start rl) (as ++ bs)}
          u.limiter.blockedUntil) := by
  have hrun : machine.run (start rl) (as ++ bs) = some u := by
    rw [run_append, ht, Option.bind_some, hu]
  have hbefore := (tallied_start.run (List.forall_mem_append.1 hclock).1 ht).1
  refine ⟨(hbefore.run (List.forall_mem_append.1 hclock).2 hu).2, fun hdone ↦ ?_⟩
  exact (tallied_start.run hclock hrun).1.isGreatest fun i ↦ carried_of_not_notifying (hdone i)

/-- A thread that no label names stays where it is. -/
theorem threads_of_run (hi : ∀ a ∈ as, a.thread ≠ i) (h : machine.run s as = some u) :
    u.threads i = s.threads i := by
  refine ((runsUnder_true_iff.2 h).and_forall hi).invariant (P := fun v ↦ v.threads i = s.threads i)
    (fun v a w hv hC hstep ↦ ?_) rfl
  rw [← hv]
  cases a with
  | call j c =>
    simp only [machine, step, Option.ite_none_right_eq_some, Option.some.injEq] at hstep
    rw [← hstep.2]
    exact Function.update_of_ne hC.2.symm _ _
  | go j now lucky =>
    obtain ⟨p, -, rfl⟩ := Option.map_eq_some_iff.1 hstep
    exact Function.update_of_ne hC.2.symm _ _

/-- Two notifications that load the same barrier. The one that asks for less succeeds first, and the
other one has to try again. -/
def twoNotifications : List Action :=
  [.call 1 (.notifyRateLimited 5), .call 2 (.notifyRateLimited 9), .go 1 100 true, .go 2 50 true,
    .go 1 110 true, .go 2 110 true, .go 1 120 true, .go 2 120 true, .go 2 130 true]

/-- Its last access is the second try. -/
theorem isGreatest_blockedUntil_twoNotifications :
    ∃ t u, machine.run (start (new 200 0)) twoNotifications.dropLast = some t ∧
      machine.run t [.go 2 130 true] = some u ∧
      t.limiter.blockedUntil ≤ u.limiter.blockedUntil ∧
      IsGreatest {v | v ∈ 0 :: machine.trace notification (start (new 200 0)) twoNotifications}
        u.limiter.blockedUntil := by
  have hclock : ∀ a ∈ twoNotifications.dropLast ++ [.go 2 130 true], ∀ now ∈ a.time?, now < 2 ^ 63 := by
    simp [twoNotifications, Action.time?]
  obtain ⟨t, u, ht, hu, h1, h2⟩ :
      ∃ t u, machine.run (start (new 200 0)) twoNotifications.dropLast = some t ∧
        machine.run t [.go 2 130 true] = some u ∧ u.threads 1 = .idle ∧ u.threads 2 = .idle :=
    ⟨_, _, rfl, rfl, rfl, rfl⟩
  have hrun : machine.run (start (new 200 0)) twoNotifications = some u := by
    rw [show twoNotifications = twoNotifications.dropLast ++ [.go 2 130 true] from rfl, run_append, ht,
      Option.bind_some, hu]
  have hlabels : ∀ a ∈ twoNotifications, a.thread = 1 ∨ a.thread = 2 := by decide
  have hidle : ∀ i, u.threads i = .idle := by
    intro i
    by_cases hi : i = 1 ∨ i = 2
    · rcases hi with rfl | rfl
      · exact h1
      · exact h2
    · exact threads_of_run (fun a ha (heq : a.thread = i) ↦ hi (heq ▸ hlabels a ha)) hrun
  obtain ⟨hle, hgreatest⟩ := isGreatest_blockedUntil hclock ht hu
  exact ⟨t, u, ht, hu, hle, hgreatest fun i ↦ by simp [hidle i, Pc.Notifying]⟩

end RateLimiter

end Alpaca
