import AlpacaCpp.Time.RoundTrip

/-!
# Both ends of the range

A 64-bit count of nanoseconds reaches from the epoch into the year 2554, while four digits reach from
the year 0 to 9999. `to_nanoseconds` checks the sign of a date-time, but returns from a bare date
before that check, and checks the upper end on neither path. `toNanoseconds?_eq_zero_iff` says for which
dates and date-times it returns 0 where it should.
-/

namespace Alpaca

open Decimal Gregorian

/-- A date that exists, written with four digits of year. -/
structure BareDate where
  year : ℕ
  month : ℕ
  day : ℕ
  year_le : year ≤ 9999
  valid : ValidDate year month day

namespace BareDate

variable (d : BareDate)

/-- `YYYY-MM-DD` -/
def text : Bytes := dateText d.year d.month d.day

/-- UTC midnight, in nanoseconds from the epoch. -/
def instant : ℤ := dayNumber d.year d.month d.day * 86400 * 10 ^ 9

theorem separator_upperT : byte 'T' = byte 'T' ∨ byte 'T' = byte 't' ∨ byte 'T' = byte ' ' := .inl rfl

/-- The same instant as a date-time. -/
def midnight : Rfc3339 where
  year := d.year
  month := d.month
  day := d.day
  year_le := d.year_le
  valid := d.valid
  separator := byte 'T'
  separator_mem := separator_upperT
  hour := 0
  minute := 0
  hour_le := Nat.zero_le _
  minute_le := Nat.zero_le _
  seconds := some ⟨0, Nat.zero_le _, none⟩
  zone := .utc

theorem text_midnight : d.midnight.text = d.text ++ bytes "T00:00:00Z" := by
  simp [Rfc3339.text, midnight, text, secondsText, fractionText, Zone.text, fixed, bytes, digit, byte]

theorem utcSeconds_midnight :
    d.midnight.utcSeconds = dayNumber d.year d.month d.day * 86400 := by
  simp [Rfc3339.utcSeconds, midnight, Zone.seconds]

theorem fractionNanos_midnight : d.midnight.fractionNanos = 0 := by
  simp [Rfc3339.fractionNanos, Rfc3339.digits, midnight]

/-- A day of four digits of year is far from the next day whose count of nanoseconds vanishes modulo
the word. -/
theorem instant_eq_zero_of_dvd (h : 2 ^ 64 ∣ d.instant) : d.instant = 0 := by
  obtain ⟨hm, hm', hd, hd'⟩ := d.valid
  have hd31 := hd'.trans (daysInMonth_le d.year d.month)
  have hyear := d.year_le
  have hbound : |dayNumber d.year d.month d.day| < 2 ^ 48 := by
    rw [dayNumber_eq_marchYear hm hm', marchYear, abs_lt]
    split_ifs <;> omega
  rw [instant] at h ⊢
  generalize dayNumber d.year d.month d.day = n at h hbound
  have hodd : (2 : ℤ) ^ 48 ∣ n * 1318359375 := by
    refine (mul_dvd_mul_iff_right (show (2 : ℤ) ^ 16 ≠ 0 by decide)).1 ?_
    rwa [← pow_add, show n * 1318359375 * 2 ^ 16 = n * 86400 * 10 ^ 9 by ring]
  have hn : (2 : ℤ) ^ 48 ∣ n := Int.dvd_of_dvd_mul_left_of_gcd_one hodd rfl
  rw [Int.eq_zero_of_abs_lt_dvd hn hbound, zero_mul, zero_mul]

/-- A bare date is counted with its sign ignored and its overflow dropped. -/
theorem exists_toNanoseconds?_text :
    ∃ v : ℕ, toNanoseconds? d.text = some v ∧ (v : ℤ) = d.instant % 2 ^ 64 := by
  refine ⟨_, toNanoseconds?_dateText d.year_le d.valid, ?_⟩
  have hword := u64_castU64_mul_add (dayNumber d.year d.month d.day * 86400) nanosPerSecond 0
  rw [Nat.add_zero] at hword
  rw [hword, instant, nanosPerSecond, Nat.cast_zero, add_zero]
  norm_num

end BareDate

/-- A date-time is counted with its overflow dropped, behind a check of its sign. -/
theorem Rfc3339.exists_toNanoseconds?_text (t : Rfc3339) :
    ∃ v : ℕ, toNanoseconds? t.text = some v ∧
      (v : ℤ) = if ⌊t.instant⌋ < 0 then 0 else ⌊t.instant⌋ % 2 ^ 64 := by
  refine ⟨_, t.toNanoseconds?_text, ?_⟩
  have hword := u64_castU64_mul_add t.utcSeconds nanosPerSecond t.fractionNanos
  have hsign : ⌊t.instant⌋ < 0 ↔ t.utcSeconds < 0 := by
    have hfrac := t.fractionNanos_lt
    rw [t.floor_instant]
    omega
  simp only [hsign]
  split
  case isTrue => rfl
  case isFalse =>
    rw [hword, t.floor_instant, nanosPerSecond]
    norm_num

/-- **Before the epoch and past the last nanosecond.** A bare date is read as 0 where it is out of range,
and as its own midnight, if and only if it is in range: before the epoch its sign is lost, and past the
end the overflow. A date-time out of range is read as 0 if and only if it lies before the epoch or its
overflow happens to leave nothing. -/
theorem toNanoseconds?_eq_zero_iff (d : BareDate) (t : Rfc3339) :
    (((d.instant < 0 ∨ 2 ^ 64 ≤ d.instant →
          toNanoseconds? d.text = some 0 ∧ dateToNanoseconds? d.text = some 0) ∧
        toNanoseconds? d.text = toNanoseconds? (d.text ++ bytes "T00:00:00Z")) ↔
      0 ≤ d.instant ∧ d.instant < 2 ^ 64) ∧
    ((t.instant < 0 ∨ 2 ^ 64 ≤ t.instant → toNanoseconds? t.text = some 0) ↔
      t.instant < 2 ^ 64 ∨ 2 ^ 64 ∣ ⌊t.instant⌋) := by
  constructor
  · obtain ⟨v, hv, hval⟩ := d.exists_toNanoseconds?_text
    obtain ⟨w, hw, hwal⟩ := d.midnight.exists_toNanoseconds?_text
    have hfloor : ⌊d.midnight.instant⌋ = d.instant := by
      rw [Rfc3339.floor_instant, d.utcSeconds_midnight, d.fractionNanos_midnight, Nat.cast_zero,
        add_zero, BareDate.instant]
    have hdate : dateToNanoseconds? d.text = toNanoseconds? d.text := by
      have hlen : d.text.length = 10 := by simp [BareDate.text, dateText]
      rw [dateToNanoseconds?, hlen, if_neg (by decide), List.take_of_length_le hlen.le]
    rw [hdate, ← d.text_midnight, hv, hw, and_self, Option.some_inj, Option.some_inj]
    rw [hfloor] at hwal
    constructor
    · rintro ⟨hzero, heq⟩
      by_contra hout
      have hv0 : v = 0 := hzero (by omega)
      -- 0 was read, so the instant is a multiple of 2^64, and among midnights only the epoch is one
      have hvanish := d.instant_eq_zero_of_dvd (Int.dvd_of_emod_eq_zero (by rw [← hval, hv0]; rfl))
      omega
    · rintro ⟨hlo, hhi⟩
      refine ⟨fun hout ↦ by omega, ?_⟩
      rw [if_neg (not_lt.2 hlo), ← hval] at hwal
      exact_mod_cast hwal.symm
  · obtain ⟨v, hv, hval⟩ := t.exists_toNanoseconds?_text
    have hlo : t.instant < 0 ↔ ⌊t.instant⌋ < 0 := by rw [Int.floor_lt, Int.cast_zero]
    have hhi : t.instant < 2 ^ 64 ↔ ⌊t.instant⌋ < 2 ^ 64 := by
      rw [Int.floor_lt]
      norm_cast
    rw [hv, Option.some_inj, ← not_lt, hlo, hhi, Int.dvd_iff_emod_eq_zero]
    split at hval <;> omega

/-- The last day before the epoch is not read as 0, unlike its midnight; and the first day that does
not fit is read as a time in 1970. -/
theorem toNanoseconds?_outOfRange :
    (ValidDate 1969 12 31 ∧ dayNumber 1969 12 31 = -1 ∧
      toNanoseconds? (bytes "1969-12-31") = some 18446657673709551616 ∧
      toNanoseconds? (bytes "1969-12-31T00:00:00Z") = some 0) ∧
    ValidDate 2554 7 22 ∧ dayNumber 2554 7 22 = 213504 ∧ 2 ^ 64 ≤ 213504 * 86400 * 10 ^ 9 ∧
      toNanoseconds? (bytes "2554-07-22T00:00:00Z") = some 1526290448384 := by
  refine ⟨⟨by decide, by decide, rfl, rfl⟩, by decide, by decide +kernel, by decide, rfl⟩

end Alpaca
