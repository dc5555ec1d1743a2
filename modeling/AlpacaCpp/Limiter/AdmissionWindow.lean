import AlpacaCpp.Limiter.RateLimiter
import Mathlib.Algebra.Group.Action.Defs
import Mathlib.Algebra.Order.Ring.Nat

/-!
# No window is over-admitted

The window bound for `rate_limiter`, over every interleaving. The hidden relation is between the
word `tat_` and the whole history of admissions: the history is **paced** (`Paced`) and `tat_` is at
least every charge in it. It survives stale readings because pacing never mentions the order of the
admission times, failed exchanges because they admit nothing and move nothing, and both admission
rules because each places the charge between one interval and one burst window after its own notion
of admission time:

* `try_acquire` tests the upper end before it exchanges, at the reading it is admitted at;
* `acquire` exchanges untested and is admitted no earlier than the charge less the burst window,
  which is where the burst window has to hold at least one interval (`interval_le_burst`).
-/

namespace Alpaca

namespace RateLimiter

/-! ### The parameters of a limiter -/

/-- A limiter with a positive rate is enabled: the rate is a 32-bit number, smaller than the
nanoseconds of a minute, so the interval does not round down to zero. -/
theorem computeInterval_pos {requestsPerMinute : UInt32} (h : 1 ≤ requestsPerMinute) :
    0 < computeInterval requestsPerMinute := by
  have hpos : 0 < requestsPerMinute.toNat := UInt32.le_iff_toNat_le.1 h
  have hne : requestsPerMinute ≠ 0 := by
    rintro rfl
    exact absurd hpos (by decide)
  rw [computeInterval, if_neg hne]
  have hlt : requestsPerMinute.toNat < 2 ^ 32 := requestsPerMinute.toNat_lt
  exact Nat.div_pos (by rw [nanosPerMinute]; omega) hpos

/-- The effective burst is at least one request. -/
theorem effectiveBurst_pos {requestsPerMinute : UInt32} (h : 1 ≤ requestsPerMinute)
    (burst : UInt32) : 0 < effectiveBurst requestsPerMinute burst := by
  rw [effectiveBurst]
  split
  case isTrue hb =>
    rcases Nat.eq_zero_or_pos burst.toNat with h0 | hpos
    · exact absurd (UInt32.toNat_inj.1 h0) hb
    · exact hpos
  case isFalse => exact UInt32.le_iff_toNat_le.1 h

/-- The burst window holds at least one interval, unless the product wraps. -/
theorem interval_le_burst {requestsPerMinute burst : UInt32} (h : 1 ≤ requestsPerMinute)
    (hfit : computeInterval requestsPerMinute * effectiveBurst requestsPerMinute burst < 2 ^ 64) :
    (new requestsPerMinute burst).intervalNs ≤ (new requestsPerMinute burst).burstNs := by
  show computeInterval requestsPerMinute ≤ u64 _
  rw [u64_of_lt hfit]
  exact Nat.le_mul_of_pos_right _ (effectiveBurst_pos h burst)

/-- The slot comes due at most one burst window before its charge. -/
theorem le_due_add_burst (rl : RateLimiter) (charge : ℕ) : charge ≤ rl.due charge + rl.burstNs := by
  rw [due]
  split <;> omega

theorem due_le_sub (rl : RateLimiter) (charge : ℕ) : rl.due charge ≤ charge - rl.burstNs := by
  rw [due]
  split <;> omega

/-! ### What one access does to the bucket -/

/-- The interval and the burst window never move. -/
theorem advance_params {rl rl' : RateLimiter} {now : ℕ} {lucky : Bool} {pc pc' : Pc}
    (h : rl.advance now lucky pc = some (rl', pc')) :
    rl'.intervalNs = rl.intervalNs ∧ rl'.burstNs = rl.burstNs := by
  cases pc <;> simp only [advance, Option.some.injEq, Prod.mk.injEq, reduceCtorEq] at h
  case tryExchange | acquireExchange | notifyExchange => split_ifs at h <;> grind
  all_goals rw [← h.1]; exact ⟨rfl, rfl⟩

/-- A step keeps the rate and the burst window. -/
theorem step_params {s t : State} {a : Action} (h : step s a = some t) :
    t.limiter.intervalNs = s.limiter.intervalNs ∧ t.limiter.burstNs = s.limiter.burstNs := by
  cases a with
  | call i c =>
    rw [step] at h
    split at h
    · cases h; exact ⟨rfl, rfl⟩
    · cases h
  | go i now lucky =>
    obtain ⟨p, hp, rfl⟩ := Option.map_eq_some_iff.1 h
    exact advance_params hp

/-- A step that admits nothing leaves the arrival time alone. -/
theorem step_tat_of_admission_none {s t : State} {a : Action} (h : step s a = some t)
    (hnone : admission s a = none) : t.limiter.tat = s.limiter.tat := by
  cases a with
  | call i c =>
    rw [step] at h
    split at h
    · cases h; rfl
    · cases h
  | go i now lucky =>
    obtain ⟨p, hp, rfl⟩ := Option.map_eq_some_iff.1 h
    rw [admission] at hnone
    cases hpc : s.threads i <;> rw [hpc] at hp hnone <;>
      simp only [advance, Option.some.injEq, reduceCtorEq] at hp hnone
    -- the exchanges that write: of the arrival time only with an admission, of the barrier never
    case tryExchange | acquireExchange | notifyExchange => split_ifs at hp hnone <;> grind
    all_goals rw [← hp]

/-- **One admission.** The charge becomes the new arrival time; it clears the old one and the
admission time by an interval, and stays within the burst window of the admission time. -/
theorem step_of_admission {s t : State} {a : Action} {adm : Arrival ℕ} (h : step s a = some t)
    (hwrap : NoWrap s a) (hburst : s.limiter.intervalNs ≤ s.limiter.burstNs)
    (hadm : admission s a = some adm) :
    t.limiter.tat = adm.charge ∧
      s.limiter.tat + s.limiter.intervalNs ≤ adm.charge ∧
      adm.time + s.limiter.intervalNs ≤ adm.charge ∧
      adm.charge ≤ adm.time + s.limiter.burstNs := by
  cases a with
  | call i c => cases hadm
  | go i now lucky =>
    obtain ⟨p, hp, rfl⟩ := Option.map_eq_some_iff.1 h
    rw [admission] at hadm
    rw [NoWrap] at hwrap
    cases hpc : s.threads i <;> rw [hpc] at hp hadm hwrap <;> simp only [reduceCtorEq] at hadm
    case tryExchange now₀ tat =>
      obtain ⟨hsum, hwin⟩ := hwrap
      rw [advance] at hp
      split_ifs at hp hadm with htest hcas
      obtain ⟨rfl⟩ : p = _ := (Option.some.inj hp).symm
      obtain ⟨rfl⟩ : adm = _ := (Option.some.inj hadm).symm
      have hcharge : s.limiter.newTat tat now₀ = max tat now₀ + s.limiter.intervalNs :=
        u64_of_lt hsum
      rw [u64_of_lt hwin] at htest
      refine ⟨rfl, ?_, ?_, ?_⟩ <;> simp only <;> omega
    -- nothing is tested, but the admission is for the end of the sleep
    case acquireExchange tat now₀ =>
      rw [advance] at hp
      split_ifs at hp hadm with hcas
      obtain ⟨rfl⟩ : p = _ := (Option.some.inj hp).symm
      obtain ⟨rfl⟩ : adm = _ := (Option.some.inj hadm).symm
      have hcharge : s.limiter.newTat tat now₀ = max tat now₀ + s.limiter.intervalNs :=
        u64_of_lt hwrap
      have hlo := s.limiter.le_due_add_burst (s.limiter.newTat tat now₀)
      have hhi := s.limiter.due_le_sub (s.limiter.newTat tat now₀)
      refine ⟨rfl, ?_, ?_, ?_⟩ <;> simp only <;> omega

/-! ### The history of admissions -/

/-- The relation between the limiter and everything it has admitted so far. -/
structure PacedBy (interval burst : ℕ) (s : State) (log : List (Arrival ℕ)) : Prop where
  interval_eq : s.limiter.intervalNs = interval
  burst_eq : s.limiter.burstNs = burst
  paced : Paced interval burst log
  /-- The arrival time is at least every charge made. -/
  charge_le_tat : ∀ a ∈ log, a.charge ≤ s.limiter.tat

/-- **A step keeps the history paced**, one more admission or none. -/
theorem PacedBy.step {interval burst : ℕ} (hle : interval ≤ burst) {s t : State} {a : Action}
    {log : List (Arrival ℕ)} (h : PacedBy interval burst s log) (hwrap : NoWrap s a)
    (hstep : step s a = some t) :
    PacedBy interval burst t (log ++ (admission s a).toList) := by
  obtain ⟨hi, hb⟩ := step_params hstep
  rcases hadm : admission s a with - | adm
  · have htat := step_tat_of_admission_none hstep hadm
    rw [Option.toList_none, List.append_nil]
    exact ⟨hi.trans h.interval_eq, hb.trans h.burst_eq, h.paced,
      fun b hmem ↦ htat.symm ▸ h.charge_le_tat b hmem⟩
  · have hparams : s.limiter.intervalNs ≤ s.limiter.burstNs := by
      rw [h.interval_eq, h.burst_eq]
      exact hle
    obtain ⟨htat, hprev, hlo, hhi⟩ := step_of_admission hstep hwrap hparams hadm
    rw [h.interval_eq] at hprev hlo
    rw [h.burst_eq] at hhi
    -- all charges so far are at most the old arrival time, which the new one clears
    have hclear : ∀ b ∈ log, b.charge + interval ≤ adm.charge := fun b hmem ↦
      (Nat.add_le_add_right (h.charge_le_tat b hmem) interval).trans hprev
    refine ⟨hi.trans h.interval_eq, hb.trans h.burst_eq, h.paced.concat hclear hlo hhi, ?_⟩
    intro b hmem
    rw [htat]
    rcases List.mem_append.1 hmem with hmem | hmem
    · exact (Nat.le_add_right _ _).trans (hclear b hmem)
    · rw [List.mem_singleton.1 hmem]

/-- Any run of a limiter whose burst window holds an interval has a paced history. -/
theorem paced_admissions {rl : RateLimiter} (hle : rl.intervalNs ≤ rl.burstNs) {as : List Action}
    {u : State} (hrun : machine.RunsUnder NoWrap (start rl) as u) :
    Paced rl.intervalNs rl.burstNs (machine.trace admission (start rl) as) := by
  have h0 : PacedBy rl.intervalNs rl.burstNs (start rl) [] :=
    ⟨rfl, rfl, Paced.nil, by simp⟩
  have h : PacedBy rl.intervalNs rl.burstNs u ([] ++ machine.trace admission (start rl) as) :=
    hrun.invariant_trace (fun _ _ _ _ hs hwrap hstep ↦ hs.step hle hwrap hstep) h0
  exact h.paced

/-- **No window is over-admitted.** In every run of any number of threads, the admissions whose time
lies in `[s, s + w]` cost at most `w` plus the burst window. -/
theorem admissions_in_window_mul_interval_le {requestsPerMinute burst : UInt32}
    (hrate : 1 ≤ requestsPerMinute)
    (hfit : computeInterval requestsPerMinute * effectiveBurst requestsPerMinute burst < 2 ^ 64)
    {as : List Action} {u : State}
    (hrun : machine.RunsUnder NoWrap (start (new requestsPerMinute burst)) as u) (s w : ℕ) :
    ((machine.trace admission (start (new requestsPerMinute burst)) as).filter fun a ↦
        decide (s ≤ a.time ∧ a.time ≤ s + w)).length * (new requestsPerMinute burst).intervalNs ≤
      w + (new requestsPerMinute burst).burstNs := by
  have hpaced := paced_admissions (interval_le_burst hrate hfit) hrun
  simpa only [smul_eq_mul] using hpaced.length_smul_le (s := s) (w := w) (Nat.zero_le _)

/-- Two threads race for a limiter of one request a second with a burst of two: the second one loses
its first exchange to the first and is charged on its retry. Both admissions lie in a window of width
zero, which is what the burst allows. -/
theorem admissions_in_window_of_race :
    ((machine.trace admission (start (new 60 2)) [.call 0 .tryAcquire, .go 0 7 true, .go 0 7 true,
        .go 0 7 true, .call 1 .acquire, .go 1 7 true, .go 1 7 true, .go 1 7 true, .go 1 7 true,
        .go 0 7 true, .go 1 7 true, .go 1 7 true, .go 1 7 true]).filter fun a ↦
      decide (7 ≤ a.time ∧ a.time ≤ 7 + 0)).length * (new 60 2).intervalNs ≤
        0 + (new 60 2).burstNs :=
  admissions_in_window_mul_interval_le (by decide) (by decide) (Machine.runsUnder_iff_check.2 rfl) 7 0

end RateLimiter

end Alpaca
