import AlpacaCpp.Foundation.Gregorian
import AlpacaCpp.Foundation.Words
import Mathlib.Tactic.Set

/-!
# `days_from_civil` and `civil_from_days`

The two closed forms of `core/src/utils.cpp`, with their truncating signed division and their 32-bit
unsigned intermediates, and the two facts everything about timestamps rests on:

* `daysFromCivil_eq_dayNumber`: the first one counts days;
* `civilFromDays_spec`: the second one yields an existing date with the given day number.

Together they make the two functions inverse to each other (`daysFromCivil_civilFromDays`).

Both formulas split an era of 400 years into its years. The second one has to guess the year of the
era from the day of the era by division alone; `yoe_eq` is where the guess is checked, once, over a
day written as century, four-year cycle and remainder.
-/

namespace Alpaca

open Gregorian

/-- `days_from_civil`: days since 1970-01-01 from a civil date. -/
def daysFromCivil (y : ℤ) (m d : ℕ) : ℤ :=
  let y := y - if m ≤ 2 then 1 else 0
  let era := (if y ≥ 0 then y else y - 399).tdiv 400
  let yoe := u32 (y - era * 400)
  let doy := u32 (u32 (153 * u32 (m + if m > 2 then -3 else 9) + 2) / 5 + d - 1)
  let doe := u32 (yoe * 365 + yoe / 4 - yoe / 100 + doy)
  era * 146097 + doe - 719468

/-- `civil_from_days`: year, month and day from days since 1970-01-01. -/
def civilFromDays (z : ℤ) : ℤ × ℕ × ℕ :=
  let z := z + 719468
  let era := (if z ≥ 0 then z else z - 146096).tdiv 146097
  let doe := u32 (z - era * 146097)
  let yoe := u32 (doe - doe / 1460 + doe / 36524 - doe / 146096) / 365
  let yr := yoe + era * 400
  let doy := u32 (doe - (365 * yoe + yoe / 4 - yoe / 100))
  let mp := u32 (5 * doy + 2) / 153
  let d := u32 (doy - u32 (153 * mp + 2) / 5 + 1)
  let m := u32 (mp + if mp < 10 then 3 else -9)
  (yr + if m ≤ 2 then 1 else 0, m, d)

/-- The source's guarded truncating division is division rounding down. -/
theorem tdiv_guard (z : ℤ) {n : ℤ} (hn : 0 < n) :
    (if z ≥ 0 then z else z - (n - 1)).tdiv n = z / n := by
  split
  case isTrue h => exact Int.tdiv_eq_ediv_of_nonneg h
  case isFalse h =>
    have hlo := Int.emod_nonneg z hn.ne'
    have hhi := Int.emod_lt_of_pos z hn
    have hsplit : n - 1 - z = (n - 1 - z % n) + n * -(z / n) := by
      rw [mul_neg]
      have := Int.mul_ediv_add_emod z n
      omega
    have hdiv : (n - 1 - z) / n = -(z / n) := by
      rw [hsplit, Int.add_mul_ediv_left _ _ hn.ne',
        Int.ediv_eq_zero_of_lt (by omega) (by omega), zero_add]
    rw [show z - (n - 1) = -(n - 1 - z) by ring, Int.neg_tdiv,
      Int.tdiv_eq_ediv_of_nonneg (by omega), hdiv, neg_neg]

/-! ### From a date to its day number -/

/-- The day number of a date whose month and day may lie outside the calendar. Months go on in the
rhythm of the year that begins in March. The day before March 1 of the first year of an era is the one
place where the unsigned day of the era goes below zero. -/
def lenientDay (y : ℤ) (m d : ℕ) : ℤ :=
  marchYear (if m ≤ 2 then y - 1 else y) +
    (153 * (if m ≤ 2 then m + 9 else m - 3 : ℕ) + 2) / 5 + (d - 1) +
    if m = 3 ∧ d = 0 ∧ 400 ∣ y then 2 ^ 32 else 0

/-- **`days_from_civil` on any two digits of month and day.** But for that one place, no intermediate
leaves its 32-bit word for good, so the unsigned arithmetic is the arithmetic of the March-based closed
form. -/
theorem daysFromCivil_eq_lenientDay {y : ℤ} {m d : ℕ} (hm : m < 10 ^ 2) (hd : d < 10 ^ 2) :
    daysFromCivil y m d = lenientDay y m d := by
  simp only [daysFromCivil, lenientDay, tdiv_guard _ (show (0 : ℤ) < 400 by decide),
    show (399 : ℤ) = 400 - 1 by rfl]
  have hy : (if m ≤ 2 then y - 1 else y) = y - if m ≤ 2 then 1 else 0 := by split <;> omega
  have hwrap : (m = 3 ∧ d = 0 ∧ 400 ∣ y) ↔ (m = 3 ∧ d = 0 ∧ 400 ∣ y - if m ≤ 2 then 1 else 0) := by
    split <;> omega
  simp only [hy, hwrap]
  generalize (y - if m ≤ 2 then 1 else 0 : ℤ) = y'
  have hyoe := u32_of_lt (x := y' - y' / 400 * 400) (by omega) (by omega)
  set yoe := u32 (y' - y' / 400 * 400)
  have hmp := u32_of_lt (x := (m : ℤ) + if m > 2 then -3 else 9) (by split <;> omega)
    (by split <;> omega)
  set mp := u32 ((m : ℤ) + if m > 2 then -3 else 9)
  have hmp' : ((if m ≤ 2 then m + 9 else m - 3 : ℕ) : ℤ) = mp := by
    rw [hmp]
    split_ifs <;> omega
  have hmp96 : mp ≤ 96 ∧ (mp = 0 ↔ m = 3) := by split_ifs at hmp <;> omega
  rw [hmp']
  have hq := u32_of_lt (x := 153 * (mp : ℤ) + 2) (by omega) (by omega)
  set q := u32 (153 * (mp : ℤ) + 2)
  have hera := marchYear_era (y' / 400) yoe (by omega) (by omega)
  rw [show y' / 400 * 400 + (yoe : ℤ) = y' by omega] at hera
  rw [hera]
  -- the day of the year may be -1 on the way, the day of the era only at the start of an era
  rw [u32_add_u32]
  by_cases hzero : m = 3 ∧ d = 0 ∧ 400 ∣ y'
  · have hdoe : (yoe : ℤ) * 365 + yoe / 4 - yoe / 100 + (q / 5 + d - 1) = -1 := by omega
    have hwrapped : (u32 (-1) : ℤ) = 2 ^ 32 - 1 := rfl
    rw [if_pos hzero, hdoe, hwrapped]
    omega
  · have hdoe := u32_of_lt (x := (yoe : ℤ) * 365 + yoe / 4 - yoe / 100 + (q / 5 + d - 1)) (by omega)
      (by omega)
    rw [if_neg hzero, hdoe]
    omega

/-- **`days_from_civil` counts days**, for every year. -/
theorem daysFromCivil_eq_dayNumber {y : ℤ} {m d : ℕ} (h : ValidDate y m d) :
    daysFromCivil y m d = dayNumber y m d := by
  obtain ⟨hm, hm', hd, hd'⟩ := h
  have hd31 : d ≤ 31 := hd'.trans (daysInMonth_le y m)
  have hday : ¬(m = 3 ∧ d = 0 ∧ 400 ∣ y) := by omega
  rw [daysFromCivil_eq_lenientDay (by omega) (by omega), lenientDay, if_neg hday, add_zero,
    dayNumber_eq_marchYear hm hm']

/-! ### From a day number to its date -/

/-- The year of the era, guessed by division. The day of the era is written as `c` centuries, `q`
cycles of four years and `t` days; a century of the era other than the last ends without a leap
day, hence the bound on `t` in its last cycle. -/
theorem yoe_eq {c q t : ℕ} (hc : c ≤ 3) (hq : q ≤ 24) (ht : t ≤ 1460) (hlast : q = 24 → t ≤ 1459)
    {doe : ℕ} (hdoe : doe = 36524 * c + 1461 * q + t) :
    (doe - doe / 1460 + doe / 36524 - doe / 146096) / 365 = 100 * c + 4 * q + min 3 (t / 365) := by
  have hcent : doe / 36524 = c := by omega
  have hera : doe / 146096 = 0 := by omega
  rw [hcent, hera]
  omega

/-- Every day of an era lies in the year the division guesses, and a 366th day only occurs in a year
whose February, which is its end, has a leap day. -/
theorem year_of_era (doe : ℕ) (h : doe ≤ 146096) (yoe : ℕ)
    (hyoe : yoe = (doe - doe / 1460 + doe / 36524 - doe / 146096) / 365) :
    yoe ≤ 399 ∧ 365 * yoe + yoe / 4 - yoe / 100 ≤ doe ∧
      doe - (365 * yoe + yoe / 4 - yoe / 100) ≤ 365 ∧
      (doe - (365 * yoe + yoe / 4 - yoe / 100) = 365 →
        (yoe + 1) % 4 = 0 ∧ ((yoe + 1) % 100 = 0 → (yoe + 1) % 400 = 0)) := by
  rcases Nat.lt_or_ge doe 146096 with hlt | hge
  · -- a century, a cycle of four years in it, and a day of the cycle
    have hsplit := Nat.div_add_mod doe 36524
    have hcyc := Nat.div_add_mod (doe % 36524) 1461
    set c := doe / 36524
    set q := doe % 36524 / 1461
    set t := doe % 36524 % 1461
    rw [yoe_eq (c := c) (q := q) (t := t) (by omega) (by omega) (by omega) (by omega) (by omega)]
      at hyoe
    set k := min 3 (t / 365) with hk
    have hfour : yoe / 4 = 25 * c + q := by omega
    have hhundred : yoe / 100 = c := by omega
    rw [hfour, hhundred]
    refine ⟨?_, ?_, ?_, ?_⟩ <;> omega
  · obtain rfl : doe = 146096 := by omega
    obtain rfl : yoe = 399 := hyoe
    decide

/-- The month and the day that a day of a year that begins in March falls on. Only its last month,
February, can run into the end of the year. -/
theorem validDate_of_dayOfYear {y : ℤ} {doy mp m d : ℕ} (hdoy : doy ≤ 365) (hleap : doy = 365 → IsLeap y)
    (hmp : mp = (5 * doy + 2) / 153) (hm : m = if mp < 10 then mp + 3 else mp - 9)
    (hd : d = doy - (153 * mp + 2) / 5 + 1) :
    ValidDate y m d ∧ (153 * (if m ≤ 2 then m + 9 else m - 3) + 2) / 5 + (d - 1) = doy := by
  have hmp11 : mp ≤ 11 := by omega
  have hback : (if m ≤ 2 then m + 9 else m - 3) = mp := by
    rw [hm]
    split <;> split <;> omega
  have hm12 : 1 ≤ m ∧ m ≤ 12 := by
    rw [hm]
    split <;> omega
  refine ⟨⟨hm12.1, hm12.2, by omega, ?_⟩, by rw [hback]; omega⟩
  rw [daysInMonth]
  rcases Nat.lt_or_ge mp 11 with hlt | hge
  · rw [if_neg (by split at hm <;> omega)]
    split <;> split at hm <;> omega
  · obtain rfl : mp = 11 := by omega
    have h2 : m = 2 := hm
    rw [if_pos h2]
    split
    case isTrue => omega
    case isFalse hnot =>
      have hend : doy ≠ 365 := fun h ↦ hnot (hleap h)
      omega

/-- **`civil_from_days` inverts the count**: it yields a date that exists and has the given number. -/
theorem civilFromDays_spec (z : ℤ) :
    ValidDate (civilFromDays z).1 (civilFromDays z).2.1 (civilFromDays z).2.2 ∧
      dayNumber (civilFromDays z).1 (civilFromDays z).2.1 (civilFromDays z).2.2 = z := by
  simp only [civilFromDays, tdiv_guard _ (show (0 : ℤ) < 146097 by decide),
    show (146096 : ℤ) = 146097 - 1 by rfl]
  obtain ⟨z', hz⟩ : ∃ z', z' = z + 719468 := ⟨_, rfl⟩
  rw [← hz]
  -- no 32-bit intermediate wraps: each is the number it stands for
  have hdoe := u32_of_lt (x := z' - z' / 146097 * 146097) (by omega) (by omega)
  set doe := u32 (z' - z' / 146097 * 146097)
  have hguess := u32_of_lt (x := (doe : ℤ) - doe / 1460 + doe / 36524 - doe / (146097 - 1))
    (by omega) (by omega)
  set guess := u32 ((doe : ℤ) - doe / 1460 + doe / 36524 - doe / (146097 - 1))
  obtain ⟨hyoe, hlo, hhi, hleap⟩ := year_of_era doe (by omega) (guess / 365)
    (by omega)
  generalize guess / 365 = yoe at *
  have hdoy := u32_of_lt (x := (doe : ℤ) - (365 * yoe + yoe / 4 - yoe / 100)) (by omega) (by omega)
  set doy := u32 ((doe : ℤ) - (365 * yoe + yoe / 4 - yoe / 100))
  have hmp := u32_of_lt (x := 5 * (doy : ℤ) + 2) (by omega) (by omega)
  have hw : u32 (5 * (doy : ℤ) + 2) = 5 * doy + 2 := by omega
  rw [hw]
  obtain ⟨mp, hmp⟩ : ∃ mp, mp = (5 * doy + 2) / 153 := ⟨_, rfl⟩
  rw [← hmp]
  have hq := u32_of_lt (x := 153 * (mp : ℤ) + 2) (by omega) (by omega)
  have hd := u32_of_lt (x := (doy : ℤ) - u32 (153 * (mp : ℤ) + 2) / 5 + 1) (by omega) (by omega)
  have hm := u32_of_lt (x := (mp : ℤ) + if mp < 10 then 3 else -9) (by split <;> omega)
    (by split <;> omega)
  set d := u32 ((doy : ℤ) - u32 (153 * (mp : ℤ) + 2) / 5 + 1)
  set m := u32 ((mp : ℤ) + if mp < 10 then 3 else -9)
  have hm' : m = if mp < 10 then mp + 3 else mp - 9 := by split at hm <;> split <;> omega
  -- the year of the date is the next one for January and February
  have hend : doy = 365 → IsLeap (yoe + z' / 146097 * 400 + if m ≤ 2 then 1 else 0) := by
    intro hlast
    have h2 : m ≤ 2 := by split at hm <;> omega
    rw [if_pos h2, IsLeap]
    omega
  obtain ⟨hvalid, hback⟩ := validDate_of_dayOfYear (by omega) hend hmp hm' (show d = _ by omega)
  have hyear : (if m ≤ 2 then (yoe + z' / 146097 * 400 + if m ≤ 2 then 1 else 0) - 1
      else yoe + z' / 146097 * 400 + if m ≤ 2 then 1 else 0 : ℤ) = z' / 146097 * 400 + yoe := by
    split <;> omega
  refine ⟨hvalid, ?_⟩
  rw [dayNumber_eq_marchYear hvalid.one_le_month hvalid.month_le, hyear,
    marchYear_era _ _ (by omega) (by omega)]
  omega

/-! ### There and back -/

/-- **The two closed forms are inverse to each other and agree with the calendar**: every date that
exists goes to its day number and comes back, and every day number goes to a date that exists and
comes back. -/
theorem daysFromCivil_civilFromDays {y : ℤ} {m d : ℕ} (h : ValidDate y m d) (z : ℤ) :
    daysFromCivil y m d = dayNumber y m d ∧
      civilFromDays (daysFromCivil y m d) = (y, m, d) ∧
      ValidDate (civilFromDays z).1 (civilFromDays z).2.1 (civilFromDays z).2.2 ∧
      daysFromCivil (civilFromDays z).1 (civilFromDays z).2.1 (civilFromDays z).2.2 = z := by
  have hcount := daysFromCivil_eq_dayNumber h
  obtain ⟨hvalid, hnumber⟩ := civilFromDays_spec z
  refine ⟨hcount, ?_, hvalid, (daysFromCivil_eq_dayNumber hvalid).trans hnumber⟩
  obtain ⟨hvalid', hnumber'⟩ := civilFromDays_spec (daysFromCivil y m d)
  obtain ⟨hy, hm, hd⟩ := hvalid'.dayNumber_injective h (hnumber'.trans hcount)
  exact Prod.ext hy (Prod.ext hm hd)

/-- A leap day, and a day long before the era of the clock. -/
theorem daysFromCivil_civilFromDays_leapDay :
    daysFromCivil 2024 2 29 = dayNumber 2024 2 29 ∧
      civilFromDays (daysFromCivil 2024 2 29) = (2024, 2, 29) ∧
      ValidDate (civilFromDays (-719469)).1 (civilFromDays (-719469)).2.1 (civilFromDays (-719469)).2.2 ∧
      daysFromCivil (civilFromDays (-719469)).1 (civilFromDays (-719469)).2.1
        (civilFromDays (-719469)).2.2 = -719469 :=
  daysFromCivil_civilFromDays (by decide) (-719469)

end Alpaca
