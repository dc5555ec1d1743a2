import Mathlib.Algebra.BigOperators.Intervals
import Mathlib.Algebra.Order.BigOperators.Group.Finset
import Mathlib.Algebra.Order.Ring.Int
import Mathlib.Tactic.IntervalCases
import Mathlib.Tactic.Ring

/-!
# The proleptic Gregorian calendar, by counting days

The day number of a date is **counted**: from 1970-01-01, whole years forward or backward by their
lengths, then whole months of the date's own year, then days. Nothing but the leap-year rule goes
into it, so it is the specification that closed-form calendar arithmetic is compared with.

The closed forms themselves are derived here, in the shape such arithmetic uses: years that begin in
March, so that the leap day is the last day of its year (`dayNumber_eq_marchYear`), and eras of 400
years (`marchYear_era`). That no two dates share a day number (`ValidDate.dayNumber_injective`) is read
off the count itself.
-/

namespace Gregorian

open Finset

/-- The leap-year rule. -/
def IsLeap (y : ℤ) : Prop := 4 ∣ y ∧ (¬100 ∣ y ∨ 400 ∣ y)

instance : DecidablePred IsLeap := fun y ↦
  inferInstanceAs (Decidable (4 ∣ y ∧ (¬100 ∣ y ∨ 400 ∣ y)))

/-- Days in a year. -/
def daysInYear (y : ℤ) : ℤ := if IsLeap y then 366 else 365

/-- Days in a month, numbered from 1. -/
def daysInMonth (y : ℤ) (m : ℕ) : ℕ :=
  if m = 2 then if IsLeap y then 29 else 28
  else if m = 4 ∨ m = 6 ∨ m = 9 ∨ m = 11 then 30
  else 31

/-- A month of the year and a day that exists in it. -/
structure ValidDate (y : ℤ) (m d : ℕ) : Prop where
  one_le_month : 1 ≤ m
  month_le : m ≤ 12
  one_le_day : 1 ≤ d
  day_le : d ≤ daysInMonth y m

instance (y : ℤ) (m d : ℕ) : Decidable (ValidDate y m d) :=
  decidable_of_iff (1 ≤ m ∧ m ≤ 12 ∧ 1 ≤ d ∧ d ≤ daysInMonth y m)
    ⟨fun ⟨h₁, h₂, h₃, h₄⟩ ↦ ⟨h₁, h₂, h₃, h₄⟩, fun ⟨h₁, h₂, h₃, h₄⟩ ↦ ⟨h₁, h₂, h₃, h₄⟩⟩

/-- Days from 1970-01-01 to January 1 of the year, counted year by year in either direction. -/
def yearStart (y : ℤ) : ℤ :=
  match y - 1970 with
  | .ofNat n => ∑ i ∈ range n, daysInYear (1970 + i)
  | .negSucc n => -∑ i ∈ range (n + 1), daysInYear (1969 - i)

/-- Days from January 1 to the first of the month, counted month by month. -/
def monthStart (y : ℤ) (m : ℕ) : ℕ := ∑ k ∈ Ico 1 m, daysInMonth y k

/-- The signed number of days from 1970-01-01 to the date. -/
def dayNumber (y : ℤ) (m d : ℕ) : ℤ := yearStart y + monthStart y m + (d - 1)

theorem daysInMonth_le (y : ℤ) (m : ℕ) : daysInMonth y m ≤ 31 := by
  rw [daysInMonth]
  split_ifs <;> omega

/-! ### Years -/

theorem yearStart_of_nonneg (n : ℕ) :
    yearStart (1970 + n) = ∑ i ∈ range n, daysInYear (1970 + i) := by
  rw [yearStart, show (1970 + (n : ℤ)) - 1970 = Int.ofNat n by simp]

/-- The first day of a year up to 1970. -/
theorem yearStart_of_neg (n : ℕ) :
    yearStart (1970 - n) = -∑ i ∈ range n, daysInYear (1969 - i) := by
  cases n with
  | zero => rfl
  | succ n =>
    rw [yearStart, show (1970 - ((n + 1 : ℕ) : ℤ)) - 1970 = Int.negSucc n by omega]

/-- Counting forward or backward, a year is followed by its own length. -/
theorem yearStart_add_one (y : ℤ) : yearStart (y + 1) = yearStart y + daysInYear y := by
  rcases le_or_gt 1970 y with h | h
  · obtain ⟨n, rfl⟩ := Int.le.dest h
    rw [yearStart_of_nonneg, show (1970 + (n : ℤ)) + 1 = 1970 + ((n + 1 : ℕ) : ℤ) by push_cast; ring,
      yearStart_of_nonneg, sum_range_succ]
  · obtain ⟨n, hn⟩ := Int.le.dest (show y + 1 ≤ 1970 by omega)
    have hy : y = 1970 - ((n + 1 : ℕ) : ℤ) := by push_cast; omega
    rw [hy, yearStart_of_neg, show 1970 - ((n + 1 : ℕ) : ℤ) + 1 = 1970 - n by push_cast; ring,
      yearStart_of_neg, sum_range_succ, show 1970 - ((n + 1 : ℕ) : ℤ) = 1969 - n by push_cast; ring]
    ring

/-- Leap years among the years before `y`, up to a constant. -/
theorem yearStart_eq (y : ℤ) :
    yearStart y = 365 * (y - 1970) + ((y - 1) / 4 - (y - 1) / 100 + (y - 1) / 400) - 477 := by
  induction y using Int.inductionOn' (b := 1970) with
  | zero => simpa using yearStart_of_nonneg 0
  | succ k _ ih =>
    rw [yearStart_add_one, ih, daysInYear]
    split
    case isTrue h => rw [IsLeap] at h; omega
    case isFalse h => rw [IsLeap] at h; omega
  | pred k _ ih =>
    have hstep := yearStart_add_one (k - 1)
    rw [show k - 1 + 1 = k by ring, ih, daysInYear] at hstep
    split at hstep
    case isTrue h => rw [IsLeap] at h; omega
    case isFalse h => rw [IsLeap] at h; omega

/-! ### Years that begin in March -/

/-- Days from 1970-01-01 to March 1 of the year. -/
def marchYear (y : ℤ) : ℤ := 365 * y + y / 4 - y / 100 + y / 400 - 719468

/-- An era of 400 years has a fixed length. -/
theorem marchYear_era (era yoe : ℤ) (h₀ : 0 ≤ yoe) (h : yoe < 400) :
    marchYear (era * 400 + yoe) = era * 146097 + (365 * yoe + yoe / 4 - yoe / 100) - 719468 := by
  rw [marchYear]
  omega

/-- The months are spaced regularly from March to January, by `(153 * mp + 2) / 5`; how many days lie in
front of March 1 depends on the leap day. -/
theorem monthStart_eq (y : ℤ) {m : ℕ} (hm : 1 ≤ m) (hm' : m ≤ 12) :
    (monthStart y m : ℤ) =
      (153 * (if m ≤ 2 then m + 9 else m - 3 : ℕ) + 2) / 5 +
        if m ≤ 2 then -306 else if IsLeap y then 60 else 59 := by
  by_cases hleap : IsLeap y <;>
    interval_cases m <;> simp [monthStart, sum_Ico_succ_top, daysInMonth, hleap]

/-- In a year that begins in March, the leap day is at the very end. -/
theorem dayNumber_eq_marchYear {y : ℤ} {m d : ℕ} (hm : 1 ≤ m) (hm' : m ≤ 12) :
    dayNumber y m d =
      marchYear (if m ≤ 2 then y - 1 else y) +
        (153 * (if m ≤ 2 then m + 9 else m - 3 : ℕ) + 2) / 5 + (d - 1) := by
  rw [dayNumber, yearStart_eq, monthStart_eq y hm hm', marchYear]
  generalize (153 * (if m ≤ 2 then m + 9 else m - 3 : ℕ) + 2 : ℤ) / 5 = days
  split
  case isTrue => omega
  case isFalse =>
    split
    case isTrue hleap => rw [IsLeap] at hleap; omega
    case isFalse hleap => rw [IsLeap] at hleap; omega

/-! ### One date for each day number -/

theorem daysInYear_nonneg (y : ℤ) : 0 ≤ daysInYear y := by
  rw [daysInYear]
  split <;> omega

/-- Later years begin later. -/
theorem yearStart_mono {y y' : ℤ} (h : y ≤ y') : yearStart y ≤ yearStart y' := by
  refine monotone_int_of_le_succ (fun y ↦ ?_) h
  have hlen := daysInYear_nonneg y
  rw [yearStart_add_one]
  omega

theorem monthStart_succ (y : ℤ) {m : ℕ} (hm : 1 ≤ m) :
    monthStart y (m + 1) = monthStart y m + daysInMonth y m :=
  sum_Ico_succ_top hm _

theorem monthStart_mono (y : ℤ) : Monotone (monthStart y) := fun _ _ h ↦
  sum_le_sum_of_subset (Ico_subset_Ico_right h)

/-- The twelve months make up the year. -/
theorem monthStart_thirteen (y : ℤ) : (monthStart y 13 : ℤ) = daysInYear y := by
  rw [daysInYear]
  split
  case isTrue hleap => simp [monthStart, sum_Ico_succ_top, daysInMonth, hleap]
  case isFalse hleap => simp [monthStart, sum_Ico_succ_top, daysInMonth, hleap]

/-- A day of an earlier month lies in front of the first of a later one. -/
theorem ValidDate.monthStart_add_le {y : ℤ} {m d m' : ℕ} (h : ValidDate y m d) (hlt : m < m') :
    monthStart y m + d ≤ monthStart y m' := by
  have hnext := monthStart_mono y (show m + 1 ≤ m' from hlt)
  rw [monthStart_succ y h.one_le_month] at hnext
  have hday := h.day_le
  omega

/-- A day of an earlier year lies in front of January 1 of a later one. -/
theorem ValidDate.dayNumber_lt_yearStart {y y' : ℤ} {m d : ℕ} (h : ValidDate y m d) (hlt : y < y') :
    dayNumber y m d < yearStart y' := by
  have hnext := yearStart_mono (show y + 1 ≤ y' from hlt)
  rw [yearStart_add_one, ← monthStart_thirteen] at hnext
  have hin := h.monthStart_add_le (show m < 13 from Nat.lt_succ_of_le h.month_le)
  rw [dayNumber]
  omega

/-- A date lies in its year. -/
theorem ValidDate.yearStart_le_dayNumber {y : ℤ} {m d : ℕ} (h : ValidDate y m d) :
    yearStart y ≤ dayNumber y m d := by
  have hday := h.one_le_day
  rw [dayNumber]
  omega

/-- **Two dates that exist and have one day number are one date.** -/
theorem ValidDate.dayNumber_injective {y y' : ℤ} {m m' d d' : ℕ} (h : ValidDate y m d)
    (h' : ValidDate y' m' d') (heq : dayNumber y m d = dayNumber y' m' d') :
    y = y' ∧ m = m' ∧ d = d' := by
  -- A date lies behind the first day of its year and in front of that of any later one.
  have hyear : y = y' := by
    have hlo := h.yearStart_le_dayNumber
    have hlo' := h'.yearStart_le_dayNumber
    rcases lt_trichotomy y y' with hlt | rfl | hgt
    · have hbefore := h.dayNumber_lt_yearStart hlt
      omega
    · rfl
    · have hbefore := h'.dayNumber_lt_yearStart hgt
      omega
  subst hyear
  have hday := h.one_le_day
  have hday' := h'.one_le_day
  rw [dayNumber, dayNumber] at heq
  -- Within a year the months are as far apart.
  have hmonth : m = m' := by
    rcases lt_trichotomy m m' with hlt | rfl | hgt
    · have hbefore := h.monthStart_add_le hlt
      omega
    · rfl
    · have hbefore := h'.monthStart_add_le hgt
      omega
  subst hmonth
  omega

end Gregorian
