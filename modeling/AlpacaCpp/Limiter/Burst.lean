import AlpacaCpp.Limiter.Alone

/-!
# The burst of an idle limiter

A limiter without a barrier and with nothing booked admits its effective burst at one clock value and then
refuses. All of it is formed in 64 bits: the burst window, the end of the window, and the arrival time of
every request up to the refused one. `tries_eq_iff` reads the answers off the arrival times, and
`Walk.leaves_iff` is what they do in a word that wraps, so the burst is right **exactly when the arrival time
of the refused request does not wrap** (`tries_burst_iff`). Otherwise the limiter admits fewer, none at all,
or never refuses.
-/

namespace Alpaca

namespace RateLimiter

variable {rl : RateLimiter} {now : ℕ}

/-- The answers to `n` calls of `try_acquire` at one clock value. -/
def tries (rl : RateLimiter) (now : ℕ) : (n : ℕ) → List Bool
  | 0 => []
  | n + 1 => (rl.tryAcquire now).1 :: (rl.tryAcquire now).2.tries now n

/-- One answer, when no barrier is up. -/
theorem tryAcquire_of_unblocked (henabled : rl.intervalNs ≠ 0) (hbarrier : rl.blockedUntil ≤ now) :
    rl.tryAcquire now =
      if rl.newTat rl.tat now ≤ u64 (now + rl.burstNs) then
        (true, { rl with tat := rl.newTat rl.tat now })
      else (false, rl) := by
  rw [tryAcquire, if_neg henabled, if_neg (Nat.not_lt.2 hbarrier)]
  split_ifs with hout hin hin
  · exact absurd hin (Nat.not_le.2 hout)
  · rfl
  · rfl
  · exact absurd (Nat.le_of_not_lt hout) hin

/-- The answers are read off the arrival times. -/
theorem tries_eq_iff (henabled : rl.intervalNs ≠ 0) (hbarrier : rl.blockedUntil ≤ now) (n : ℕ) :
    rl.tries now (n + 1) = List.replicate n true ++ [false] ↔
      (∀ k < n, (rl.newTat · now)^[k + 1] rl.tat ≤ u64 (now + rl.burstNs)) ∧
        u64 (now + rl.burstNs) < (rl.newTat · now)^[n + 1] rl.tat := by
  induction n generalizing rl with
  | zero =>
    rw [tries, tryAcquire_of_unblocked henabled hbarrier, Function.iterate_one]
    split
    case isTrue hin => simp [tries, hin]
    case isFalse hout => simpa [tries] using hout
  | succ n ih =>
    rw [tries, tryAcquire_of_unblocked henabled hbarrier]
    split
    case isTrue hin =>
      have hrest := @ih { rl with tat := rl.newTat rl.tat now } henabled hbarrier
      rw [List.replicate_succ, List.cons_append, List.cons_inj_right, hrest]
      constructor
      · rintro ⟨hfirst, hlast⟩
        refine ⟨fun k hk ↦ ?_, hlast⟩
        rcases k with - | k
        · exact hin
        · exact hfirst k (by omega)
      · rintro ⟨hfirst, hlast⟩
        exact ⟨fun k hk ↦ hfirst (k + 1) (by omega), hlast⟩
    -- refused at once, though at least one request was to be admitted
    case isFalse hout =>
      refine iff_of_false (fun h ↦ ?_) fun h ↦ hout (h.1 0 (Nat.succ_pos n))
      rw [List.replicate_succ, List.cons_append] at h
      exact absurd (List.cons.inj h).1 Bool.false_ne_true

/-- A limiter that has been constructed, or set to a rate while no barrier is up. -/
inductive Idle (requestsPerMinute burst : UInt32) (now : ℕ) : RateLimiter → Prop where
  | new : Idle requestsPerMinute burst now (new requestsPerMinute burst)
  | setRate {rl : RateLimiter} :
      rl.blockedUntil ≤ now → Idle requestsPerMinute burst now (rl.setRate requestsPerMinute burst)

/-- The interval is a 64-bit value. -/
theorem computeInterval_lt (requestsPerMinute : UInt32) : computeInterval requestsPerMinute < 2 ^ 64 := by
  rw [computeInterval]
  split
  · decide
  · exact lt_of_le_of_lt (Nat.div_le_self _ _) (by decide)

/-- **Exactly when an idle limiter admits its effective burst and refuses the next request**: when the
arrival time of that request fits into 64 bits. -/
theorem tries_burst_iff {requestsPerMinute burst : UInt32} (hrate : 1 ≤ requestsPerMinute)
    (hnow : now < 2 ^ 64) (hidle : Idle requestsPerMinute burst now rl) :
    rl.tries now (effectiveBurst requestsPerMinute burst + 1) =
        List.replicate (effectiveBurst requestsPerMinute burst) true ++ [false] ↔
      now + (effectiveBurst requestsPerMinute burst + 1) * computeInterval requestsPerMinute < 2 ^ 64 := by
  have hinterval := computeInterval_pos hrate
  have hparams : rl.intervalNs = computeInterval requestsPerMinute ∧ rl.tat = 0 ∧
      rl.blockedUntil ≤ now ∧
      rl.burstNs = u64 (computeInterval requestsPerMinute * effectiveBurst requestsPerMinute burst) := by
    cases hidle with
    | new => exact ⟨rfl, rfl, Nat.zero_le _, rfl⟩
    | setRate hbarrier => exact ⟨rfl, rfl, hbarrier, rfl⟩
  obtain ⟨hI, htat, hbarrier, hB⟩ := hparams
  -- the arrival times of the requests, and the end of the window, are positions of one walk in the word
  have hnext : (rl.newTat · now) = Walk.next (2 ^ 64) now (computeInterval requestsPerMinute) := by
    funext tat
    rw [newTat, hI]
    rfl
  have hwindow : u64 (now + rl.burstNs) = Walk.position (2 ^ 64) now (computeInterval requestsPerMinute)
      (effectiveBurst requestsPerMinute burst) := by
    rw [hB, u64, u64, Nat.add_mod_mod, Nat.mul_comm, Walk.position]
  rw [tries_eq_iff (by omega) hbarrier, hnext, hwindow, htat]
  exact Walk.leaves_iff (effectiveBurst_pos hrate burst) hnow hinterval (computeInterval_lt _)

/-- The test of the source: 60 a minute with a burst of 5. -/
theorem tries_burst_five : (new 60 5).tries 7 6 = [true, true, true, true, true, false] := by
  have hidle : Idle 60 5 7 (new 60 5) := .new
  exact (tries_burst_iff (by decide) (by decide) hidle).2 (by decide)

/-- **A limiter that admits nothing**: at one request a minute, a burst of 307445735 wraps the window to
less than an interval. -/
theorem not_tries_burst :
    (new 1 307445735).tries 0 1 = [false] ∧
    ¬∀ (requestsPerMinute burst : UInt32) (now : ℕ), 1 ≤ requestsPerMinute → now < 2 ^ 63 →
      (new requestsPerMinute burst).tries now (effectiveBurst requestsPerMinute burst + 1) =
        List.replicate (effectiveBurst requestsPerMinute burst) true ++ [false] := by
  have hnone : ((new 1 307445735).tryAcquire 0).1 = false := by decide
  refine ⟨by decide, fun h ↦ ?_⟩
  have hburst := h 1 307445735 0 (by decide) (by decide)
  have hmany : effectiveBurst 1 307445735 = 307445734 + 1 := by decide
  rw [hmany, List.replicate_succ, List.cons_append, tries, hnone] at hburst
  exact absurd (List.cons.inj hburst).1 Bool.false_ne_true

end RateLimiter

end Alpaca
