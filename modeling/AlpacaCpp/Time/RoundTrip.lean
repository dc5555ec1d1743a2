import AlpacaCpp.Time.Rfc3339

/-!
# Printing a timestamp and reading it back

`to_rfc3339` prints a well-formed timestamp (`exists_text_eq_toRfc3339`), so that reading it back is
a case of `Rfc3339.toNanoseconds?_text`. What is left is that the printed fields have the widths the
reader expects: a 64-bit count of nanoseconds ends in the year 2554, and four digits hold the year.
-/

namespace Alpaca

open Decimal Gregorian

/-- The days a 64-bit count of nanoseconds reaches lie in years of four digits. -/
theorem year_of_dayNumber {y : ℤ} {m d : ℕ} (h : ValidDate y m d) (h₀ : 0 ≤ dayNumber y m d)
    (hhi : dayNumber y m d ≤ 213503) : 0 ≤ y ∧ y ≤ 9999 := by
  obtain ⟨hm, hm', hd, hd'⟩ := h
  have hd31 := hd'.trans (daysInMonth_le y m)
  rw [dayNumber_eq_marchYear hm hm', marchYear] at h₀ hhi
  split_ifs at h₀ hhi <;> omega

/-- A printed date is the text of a date that exists. -/
theorem exists_dateText_eq_formatDate {z : ℤ} (h₀ : 0 ≤ z) (h : z ≤ 213503) :
    ∃ year month day : ℕ, year ≤ 9999 ∧ ValidDate year month day ∧ dayNumber year month day = z ∧
      formatDate z = dateText year month day := by
  obtain ⟨hvalid, hnum⟩ := civilFromDays_spec z
  rw [formatDate]
  generalize civilFromDays z = date at *
  obtain ⟨year, month, day⟩ := date
  obtain ⟨hy, hy'⟩ := year_of_dayNumber hvalid (hnum.symm ▸ h₀) (hnum.symm ▸ h)
  obtain ⟨y, rfl⟩ : ∃ y : ℕ, year = y := Int.eq_ofNat_of_zero_le hy
  have hyear : y < 10 ^ 4 := by omega
  have hmonth : month < 10 ^ 2 := hvalid.month_le.trans_lt (by decide)
  have hday : day < 10 ^ 2 := (hvalid.day_le.trans (daysInMonth_le _ _)).trans_lt (by decide)
  refine ⟨y, month, day, by omega, hvalid, hnum, ?_⟩
  have hint : paddedInt 4 (y : ℤ) = fixed 4 y := by
    rw [paddedInt, if_neg (by omega), Int.toNat_natCast, padded_eq_fixed (by decide) hyear]
  simp only [hint, padded_eq_fixed (by decide) hmonth, padded_eq_fixed (by decide) hday, dateText,
    List.append_assoc, List.cons_append]

/-! ### Instants -/

/-- **`to_rfc3339` prints a well-formed timestamp** of the given number of seconds and nanoseconds. -/
theorem exists_text_eq_toRfc3339 {ns : ℕ} (h : ns < 2 ^ 64) :
    ∃ t : Rfc3339, t.text = toRfc3339 ns ∧ t.utcSeconds = (ns / nanosPerSecond : ℕ) ∧
      t.fractionNanos = ns % nanosPerSecond := by
  rw [toRfc3339]
  generalize hs : ns / nanosPerSecond = total
  generalize hf : ns % nanosPerSecond = frac
  rw [nanosPerSecond] at hs hf
  have hdays : (total : ℤ).tdiv 86400 = (total / 86400 : ℕ) := rfl
  have hrem : (total : ℤ).tmod 86400 = (total % 86400 : ℕ) := rfl
  simp only [hdays, hrem]
  rw [if_neg (by omega)]
  have hdlt : total % 86400 < 86400 := Nat.mod_lt _ (by decide)
  generalize hr : total % 86400 = r at hdlt
  obtain ⟨year, month, day, hyear, hvalid, hnum, hdate⟩ :=
    exists_dateText_eq_formatDate (z := (total / 86400 : ℕ)) (by omega) (by omega)
  -- the fraction is printed with nine digits, zeros included
  obtain ⟨ds, hds, hlen, hval⟩ := exists_digits_eq_fixed 9 frac
  have hh : (((r : ℤ) / 3600).toNat) = r / 3600 := by omega
  have hm : (((r : ℤ) % 3600 / 60).toNat) = r % 3600 / 60 := by omega
  have hsec : (((r : ℤ) % 60).toNat) = r % 60 := by omega
  refine ⟨⟨year, month, day, hyear, hvalid, byte 'T', Or.inl rfl, r / 3600, r % 3600 / 60, by omega,
    by omega, some ⟨r % 60, by omega, some ds⟩, .utc⟩, ?_, ?_, ?_⟩
  · rw [hdate, hh, hm, hsec, padded_eq_fixed (by decide) (show r / 3600 < 10 ^ 2 by omega),
      padded_eq_fixed (by decide) (show r % 3600 / 60 < 10 ^ 2 by omega),
      padded_eq_fixed (by decide) (show r % 60 < 10 ^ 2 by omega),
      padded_eq_fixed (by decide) (show frac < 10 ^ 9 by omega), ← hds]
    simp [Rfc3339.text, secondsText, fractionText, Zone.text]
  · simp only [Rfc3339.utcSeconds, hnum, Zone.seconds, Option.elim_some]
    omega
  · simp only [Rfc3339.fractionNanos, Rfc3339.digits, Option.bind_some, Option.getD_some, hlen, hval]
    omega

/-! ### Dates -/

/-- A bare date is UTC midnight. -/
theorem toNanoseconds?_dateText {year month day : ℕ} (hyear : year ≤ 9999)
    (hvalid : ValidDate year month day) :
    toNanoseconds? (dateText year month day) =
      some (u64 (castU64 (dayNumber year month day * 86400) * nanosPerSecond)) := by
  have hlen : (dateText year month day).length = 10 := by simp [dateText]
  have hdrop : (dateText year month day).drop 0 = dateText year month day ++ [] := by
    rw [List.drop_zero, List.append_nil]
  have hdate := (parseDate_dateText hyear hvalid hdrop).1
  simp only [toNanoseconds?, hlen, hdate, Option.bind_eq_bind, Option.bind_some]
  rfl

/-! ### Round trips -/

/-- What is printed reads back. -/
theorem toNanoseconds_toRfc3339 {ns : ℕ} (hns : ns < 2 ^ 64) : toNanoseconds (toRfc3339 ns) = ns := by
  obtain ⟨t, htext, hsec, hfrac⟩ := exists_text_eq_toRfc3339 hns
  obtain ⟨total, htotal⟩ : ∃ total, total = ns / nanosPerSecond := ⟨_, rfl⟩
  have hrange : total < 2 ^ 64 / 10 ^ 9 + 1 := by
    rw [htotal, nanosPerSecond]
    omega
  have hcast := castU64_of_nonneg (x := total) (by omega) (by omega)
  have hsum : castU64 total * nanosPerSecond + ns % nanosPerSecond = ns := by
    rw [Nat.cast_inj.1 hcast, htotal, Nat.div_add_mod']
  rw [← Option.some_inj, some_toNanoseconds, ← htext, t.toNanoseconds?_text, hsec, hfrac, ← htotal,
    if_neg (by omega), hsum, u64_of_lt hns]

/-- **Round trips.** Printing an instant and reading it back is the identity on 64-bit counts of
nanoseconds; printing its date and reading that back rounds it down to UTC midnight. -/
theorem toNanoseconds?_toRfc3339 (ns : UInt64) :
    toNanoseconds? (toRfc3339 ns.toNat) = some ns.toNat ∧
      dateToNanoseconds? (toDateString ns.toNat) =
        some (ns.toNat - ns.toNat % (86400 * 10 ^ 9)) := by
  have hns := ns.toNat_lt
  generalize ns.toNat = ns at *
  obtain ⟨total, htotal⟩ : ∃ total, total = ns / nanosPerSecond := ⟨_, rfl⟩
  have hrange : total < 2 ^ 64 / 10 ^ 9 + 1 := by
    rw [htotal, nanosPerSecond]
    omega
  constructor
  · rw [← some_toNanoseconds, toNanoseconds_toRfc3339 hns]
  · -- no instant is before the epoch, so the correction for a negative remainder is not taken
    have hrem : ¬(total : ℤ).tmod 86400 < 0 := by
      rw [Int.tmod_eq_emod_of_nonneg (by omega)]
      omega
    have hdays : (total : ℤ).tdiv 86400 = (total / 86400 : ℕ) := rfl
    obtain ⟨year, month, day, hyear, hvalid, hnum, hdate⟩ :=
      exists_dateText_eq_formatDate (z := (total / 86400 : ℕ)) (by omega) (by omega)
    have hlen : (dateText year month day).length = 10 := by simp [dateText]
    have htext : toDateString ns = dateText year month day := by
      rw [toDateString, ← htotal]
      simp only [if_neg hrem]
      rw [hdays, hdate]
    have hcast := castU64_of_nonneg (x := (total / 86400 : ℕ) * 86400) (by omega) (by omega)
    have hfloor : castU64 ((total / 86400 : ℕ) * 86400) * nanosPerSecond =
        ns - ns % (86400 * 10 ^ 9) := by
      rw [nanosPerSecond] at *
      omega
    rw [htext, dateToNanoseconds?, hlen, if_neg (by decide), List.take_of_length_le (by rw [hlen]),
      toNanoseconds?_dateText hyear hvalid, hnum, hfloor, u64_of_lt (by omega)]

end Alpaca
