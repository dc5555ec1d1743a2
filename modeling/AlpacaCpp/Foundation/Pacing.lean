import Mathlib.Algebra.Order.Group.Defs
import Mathlib.Algebra.Order.Monoid.Unbundled.Pow
import Mathlib.Algebra.Order.Monoid.Unbundled.Basic
import Mathlib.Algebra.Order.Ring.Nat
import Mathlib.Data.List.Pairwise
import Mathlib.Data.Nat.Find
import Mathlib.Logic.Function.Iterate
import Mathlib.Tactic.Set

/-!
# Paced sequences

The arithmetic behind virtual scheduling, with no scheduler in sight. An **arrival** is a time
together with the theoretical arrival time it was charged. A sequence of arrivals, in the order in
which they were charged, is *paced* when

* successive charges are at least one interval apart, and
* every charge lies between one interval and one burst window after its arrival time.

Nothing is said about the order of the arrival times themselves: they may be stale, repeated or
reordered. `Paced.count_smul_le` bounds the arrivals that fall into any window all the same, because
the bound only needs the charges: the first one in the window is late enough, the last one is early
enough, and in between they are spaced.

`Walk` is about the charges of arrivals that all come at one time, in a word that wraps.
`Walk.leaves_iff` is exactly when they leave their window where they should: a walk that wraps leaves it
somewhere else or, when it starts again behind the clock, never.
-/

/-- An admitted arrival: when it took place and the charge it left behind. -/
structure Arrival (R : Type*) where
  /-- The time of the arrival. -/
  time : R
  /-- The theoretical arrival time it was charged. -/
  charge : R
  deriving DecidableEq

/-- Successive charges at least `interval` apart, each within `[interval, burst]` of its time. -/
structure Paced {R : Type*} [Add R] [LE R] (interval burst : R) (l : List (Arrival R)) : Prop where
  /-- Charges are spaced by the interval, in the order of the list. -/
  spaced : l.Pairwise fun a b ↦ a.charge + interval ≤ b.charge
  /-- A charge is at least one interval after its arrival. -/
  time_add_le : ∀ a ∈ l, a.time + interval ≤ a.charge
  /-- A charge is at most one burst window after its arrival. -/
  charge_le : ∀ a ∈ l, a.charge ≤ a.time + burst

namespace Paced

variable {R : Type*}

section Append

variable [Add R] [LE R] {interval burst : R}

theorem nil : Paced interval burst ([] : List (Arrival R)) :=
  ⟨List.Pairwise.nil, by simp, by simp⟩

/-- Extending a paced sequence: the new charge clears every earlier one by the interval. -/
theorem concat {l : List (Arrival R)} (h : Paced interval burst l) {a : Arrival R}
    (hlast : ∀ b ∈ l, b.charge + interval ≤ a.charge)
    (hlo : a.time + interval ≤ a.charge) (hhi : a.charge ≤ a.time + burst) :
    Paced interval burst (l ++ [a]) := by
  refine ⟨List.pairwise_append.2 ⟨h.spaced, List.pairwise_singleton _ _, ?_⟩, ?_, ?_⟩
  · intro b hb c hc
    rw [List.mem_singleton.1 hc]
    exact hlast b hb
  · intro b hb
    rcases List.mem_append.1 hb with hb | hb
    · exact h.time_add_le b hb
    · rwa [List.mem_singleton.1 hb]
  · intro b hb
    rcases List.mem_append.1 hb with hb | hb
    · exact h.charge_le b hb
    · rwa [List.mem_singleton.1 hb]

theorem filter {l : List (Arrival R)} (h : Paced interval burst l) (p : Arrival R → Bool) :
    Paced interval burst (l.filter p) :=
  ⟨h.spaced.filter p, fun a ha ↦ h.time_add_le a ((List.mem_filter.1 ha).1),
    fun a ha ↦ h.charge_le a ((List.mem_filter.1 ha).1)⟩

end Append

variable [AddCommMonoid R] [PartialOrder R] [IsOrderedCancelAddMonoid R] {interval burst : R}

/-- Spaced charges between `x` and `u`, the first one an interval after `x`, number at most the
intervals that fit between the two. -/
theorem add_length_smul_le {u : R} :
    ∀ {l : List (Arrival R)} {x : R}, l ≠ [] →
      l.Pairwise (fun a b ↦ a.charge + interval ≤ b.charge) →
      (∀ a ∈ l, x + interval ≤ a.charge) → (∀ a ∈ l, a.charge ≤ u) →
      x + l.length • interval ≤ u := by
  intro l
  induction l with
  | nil => intro x hne; exact absurd rfl hne
  | cons a as ih =>
    intro x _ hsp hlo hhi
    have hx : x + interval ≤ a.charge := hlo a List.mem_cons_self
    rcases eq_or_ne as [] with rfl | hne
    · rw [List.length_singleton, one_nsmul]
      exact hx.trans (hhi a List.mem_cons_self)
    · have hrest : a.charge + as.length • interval ≤ u :=
        ih hne (List.pairwise_cons.1 hsp).2 (fun b hb ↦ (List.pairwise_cons.1 hsp).1 b hb)
          fun b hb ↦ hhi b (List.mem_cons_of_mem _ hb)
      calc x + (a :: as).length • interval
          = (x + interval) + as.length • interval := by
            rw [List.length_cons, succ_nsmul, add_assoc, add_comm interval]
        _ ≤ a.charge + as.length • interval := add_le_add_left hx _
        _ ≤ u := hrest

/-- **The window bound.** The arrivals of a paced sequence whose time lies in `[s, s + w]` take up
at most `w + burst` of budget, whatever order the times come in. -/
theorem length_smul_le [DecidableLE R] {l : List (Arrival R)} (h : Paced interval burst l)
    {s w : R} (hnonneg : 0 ≤ w + burst) :
    (l.filter fun a ↦ decide (s ≤ a.time ∧ a.time ≤ s + w)).length • interval ≤ w + burst := by
  set inside := l.filter fun a ↦ decide (s ≤ a.time ∧ a.time ≤ s + w) with hinside
  have hp : Paced interval burst inside := h.filter _
  have hmem : ∀ a ∈ inside, s ≤ a.time ∧ a.time ≤ s + w := fun a ha ↦ by
    simpa using (List.mem_filter.1 ha).2
  rcases eq_or_ne inside [] with hnil | hne
  · simpa [hnil] using hnonneg
  · -- The first charge inside is an interval late, the last one a burst window early.
    have hlo : ∀ a ∈ inside, s + interval ≤ a.charge := fun a ha ↦
      (add_le_add_left (hmem a ha).1 interval).trans (hp.time_add_le a ha)
    have hhi : ∀ a ∈ inside, a.charge ≤ s + (w + burst) := fun a ha ↦ by
      rw [← add_assoc]
      exact (hp.charge_le a ha).trans (add_le_add_left (hmem a ha).2 burst)
    exact le_of_add_le_add_left (add_length_smul_le hne hp.spaced hlo hhi)

end Paced

namespace Walk

variable {m now interval : ℕ}

/-- The charge behind `charge`, modulo `m`. -/
def next (m now interval charge : ℕ) : ℕ := (max charge now + interval) % m

/-- Where the charges would be if none fell behind the clock. -/
def position (m now interval i : ℕ) : ℕ := (now + i * interval) % m

theorem position_add (i : ℕ) :
    (position m now interval i + interval) % m = position m now interval (i + 1) := by
  rw [position, position, Nat.mod_add_mod, Nat.succ_mul, Nat.add_assoc]

/-- They are there as long as they stay ahead of the clock. -/
theorem iterate_next_eq {n : ℕ} (hahead : ∀ i < n, 1 ≤ i → now < position m now interval i) :
    ∀ i < n, (next m now interval)^[i + 1] 0 = position m now interval (i + 1) := by
  intro i hi
  induction i with
  | zero => rw [Function.iterate_one, next, Nat.zero_max, position, Nat.one_mul]
  | succ i ih =>
    have hlt := hahead (i + 1) hi (by omega)
    rw [Function.iterate_succ_apply', ih (by omega), next, max_eq_left (Nat.le_of_lt hlt), position_add]

/-- Behind a charge that falls behind the clock they begin again. -/
theorem iterate_next_of_behind {n : ℕ} (hpos : 1 ≤ n)
    (hahead : ∀ i < n, 1 ≤ i → now < position m now interval i)
    (hbehind : position m now interval n ≤ now) (j : ℕ) :
    ∃ i < n, (next m now interval)^[j + 1] 0 = position m now interval (i + 1) := by
  induction j with
  | zero => exact ⟨0, hpos, iterate_next_eq hahead 0 hpos⟩
  | succ j ih =>
    obtain ⟨i, hi, hwalk⟩ := ih
    rw [Function.iterate_succ_apply', hwalk, next]
    rcases Nat.lt_or_eq_of_le (Nat.succ_le_of_lt hi) with hlt | heq
    · rw [max_eq_left (Nat.le_of_lt (hahead (i + 1) hlt (by omega))), position_add]
      exact ⟨i + 1, hlt, rfl⟩
    · refine ⟨0, hpos, ?_⟩
      rw [show i + 1 = n from heq, max_eq_right hbehind, position, Nat.one_mul]

theorem position_eq {n : ℕ} (hfit : now + n * interval < m) {i : ℕ} (hi : i ≤ n) :
    position m now interval i = now + i * interval :=
  Nat.mod_eq_of_lt (lt_of_le_of_lt (Nat.add_le_add_left (Nat.mul_le_mul_right _ hi) _) hfit)

/-- **Exactly when charges leave their window behind the `n`-th**, the window being the place of the
`n`-th: when the next one does not wrap. -/
theorem leaves_iff {n : ℕ} (hn : 1 ≤ n) (hnow : now < m) (hpos : 1 ≤ interval) (hlt : interval < m) :
    ((∀ i < n, (next m now interval)^[i + 1] 0 ≤ position m now interval n) ∧
        position m now interval n < (next m now interval)^[n + 1] 0) ↔
      now + (n + 1) * interval < m := by
  constructor
  · rintro ⟨hin, hout⟩
    have hahead : ∀ i < n + 1, 1 ≤ i → now < position m now interval i := by
      by_contra hbehind
      push Not at hbehind
      -- the first charge behind the clock: what follows repeats what is in the window
      obtain ⟨hk, hk1, hkbehind⟩ := Nat.find_spec hbehind
      have hbefore : ∀ i < Nat.find hbehind, 1 ≤ i → now < position m now interval i := fun i hi hi1 ↦
        not_le.1 fun hle ↦ Nat.find_min hbehind hi ⟨hi.trans hk, hi1, hle⟩
      obtain ⟨i, hi, hrepeat⟩ := iterate_next_of_behind hk1 hbefore hkbehind n
      have hwindow := hin i (by omega)
      rw [iterate_next_eq hbefore i hi] at hwindow
      omega
    rw [iterate_next_eq hahead n (Nat.lt_succ_self n), ← position_add] at hout
    have hend : position m now interval n + interval < m := by
      by_contra hwrap
      have hwin : position m now interval n < m := Nat.mod_lt _ (by omega)
      rw [Nat.mod_eq_sub_mod (by omega), Nat.mod_eq_of_lt (by omega)] at hout
      omega
    have hplace : ∀ i ≤ n, position m now interval i = now + i * interval := by
      intro i hi
      induction i with
      | zero => rw [position, Nat.zero_mul, Nat.add_zero, Nat.mod_eq_of_lt hnow]
      | succ i ih =>
        have hle : position m now interval i ≤ position m now interval n := by
          rcases Nat.eq_zero_or_pos i with rfl | hi0
          · have hfirst := hahead n (Nat.lt_succ_self n) hn
            rw [position, Nat.zero_mul, Nat.add_zero, Nat.mod_eq_of_lt hnow]
            omega
          · have hwindow := hin (i - 1) (by omega)
            rwa [iterate_next_eq hahead (i - 1) (by omega), Nat.sub_add_cancel hi0] at hwindow
        rw [← position_add, Nat.mod_eq_of_lt (by omega), ih (by omega), Nat.succ_mul, Nat.add_assoc]
    rw [hplace n le_rfl] at hend
    rw [Nat.succ_mul]
    omega
  · intro hfit
    have hahead : ∀ i < n + 1, 1 ≤ i → now < position m now interval i := by
      intro i hi hi1
      have hstep : 1 * 1 ≤ i * interval := Nat.mul_le_mul hi1 hpos
      rw [position_eq hfit (Nat.le_of_lt hi)]
      omega
    constructor
    · intro i hi
      rw [iterate_next_eq hahead i (by omega), position_eq hfit (by omega), position_eq hfit (by omega)]
      exact Nat.add_le_add_left (Nat.mul_le_mul_right _ hi) _
    · rw [iterate_next_eq hahead n (by omega), position_eq hfit (by omega), position_eq hfit le_rfl,
        Nat.succ_mul]
      omega

end Walk
