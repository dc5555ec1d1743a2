import AlpacaCpp.Foundation.Decimal
import AlpacaCpp.Time.Civil

/-!
# Timestamp parsing and formatting

`to_nanoseconds` and its relatives of `core/src/utils.cpp`, cut at the comments of the source into
the date, the clock, the fraction and the offset, each working on positions of the same string.

Every character access is a **partial lookup**: a parser lives in `Option`, where `none` is a read outside
the string. What the source reports as unparseable is a value inside it (`some none` for a section, `some
0` for the whole), so that the two are never confused. The lemmas of the second section say that `none`
does not occur, section by section, under the length test that stands in front of each; so the total
functions of the source (`toNanoseconds`, `dateToNanoseconds`) are the values inside.

Days and seconds are signed 64-bit counts and the result is an unsigned one. The conversion, the product
and the sum are reduced where the source's are.
-/

namespace Alpaca

open Decimal

def nanosPerSecond : ℕ := 1000000000

/-! ### Parsing -/

/-- The loop of `read_digits`: `count` digits from `pos`, accumulated onto `value`. -/
def readDigitsFrom (s : Bytes) (pos : ℕ) : (count value : ℕ) → Option (Option ℕ)
  | 0, value => some (some value)
  | count + 1, value => do
    let c ← s[pos]?
    if ¬IsDigit c then return none
    readDigitsFrom s (pos + 1) count (value * 10 + (c.toNat - (byte '0').toNat))

/-- `read_digits`: exactly `count` decimal digits starting at `pos`; the inner `none` is `false`. -/
def readDigits (s : Bytes) (pos count : ℕ) : Option (Option ℕ) :=
  if pos + count > s.length then some none else readDigitsFrom s pos count 0

/-- `YYYY-MM-DD`, as a number of days. -/
def parseDate (iso : Bytes) : Option (Option ℤ) := do
  let some year ← readDigits iso 0 4 | return none
  if (← iso[4]?) ≠ byte '-' then return none
  let some month ← readDigits iso 5 2 | return none
  if (← iso[7]?) ≠ byte '-' then return none
  let some day ← readDigits iso 8 2 | return none
  return some (daysFromCivil year month day)

/-- The separator and `HH:MM[:SS]`, as a number of seconds and the position after it. -/
def parseClock (iso : Bytes) : Option (Option (ℤ × ℕ)) := do
  let sep ← iso[10]?
  if sep ≠ byte 'T' ∧ sep ≠ byte 't' ∧ sep ≠ byte ' ' then return none
  let some hour ← readDigits iso 11 2 | return none
  if iso.length < 16 then return none
  if (← iso[13]?) ≠ byte ':' then return none
  let some minute ← readDigits iso 14 2 | return none
  if 16 < iso.length then
    if (← iso[16]?) = byte ':' then
      let some second ← readDigits iso 17 2 | return none
      return some ((hour : ℤ) * 3600 + minute * 60 + second, 19)
  return some ((hour : ℤ) * 3600 + minute * 60, 16)

/-- The digit loop of the fraction: at most nine digits are kept, the rest is walked over. -/
def fractionLoop (iso : Bytes) (pos fraction digits : ℕ) : Option (ℕ × ℕ × ℕ) :=
  if pos < iso.length then do
    let c ← iso[pos]?
    if IsDigit c then
      if digits < 9 then
        fractionLoop iso (pos + 1) (fraction * 10 + (c.toNat - (byte '0').toNat)) (digits + 1)
      else fractionLoop iso (pos + 1) fraction digits
    else return (pos, fraction, digits)
  else some (pos, fraction, digits)
termination_by iso.length - pos

/-- An optional fraction, in nanoseconds, and the position after it. Short fractions are padded on
the right. -/
def parseFraction (iso : Bytes) (pos : ℕ) : Option (ℕ × ℕ) := do
  if pos < iso.length then
    if (← iso[pos]?) = byte '.' then
      let (pos, fraction, digits) ← fractionLoop iso (pos + 1) 0 0
      return (fraction * 10 ^ (9 - digits), pos)
  return (0, pos)

/-- `seconds` with the numeric offset at `pos` subtracted, when there is one. -/
def parseOffset (iso : Bytes) (pos : ℕ) (seconds : ℤ) : Option ℤ := do
  if pos < iso.length then
    let c ← iso[pos]?
    if c = byte '+' ∨ c = byte '-' then
      let sign : ℤ := if c = byte '-' then -1 else 1
      let some offHour ← readDigits iso (pos + 1) 2 | return seconds
      let colon ← if pos + 3 < iso.length then (iso[pos + 3]?).map (· == byte ':') else some false
      let minutePos := if colon then pos + 4 else pos + 3
      let offMinute := (← readDigits iso minutePos 2).getD 0
      return seconds - sign * ((offHour : ℤ) * 3600 + offMinute * 60)
  return seconds

/-- `to_nanoseconds` -/
def toNanoseconds? (iso : Bytes) : Option ℕ := do
  if iso.length < 10 then return 0
  let some days ← parseDate iso | return 0
  let seconds := days * 86400
  if iso.length = 10 then return u64 (castU64 seconds * nanosPerSecond)
  let some (clock, pos) ← parseClock iso | return 0
  let (fraction, pos) ← parseFraction iso pos
  let seconds ← parseOffset iso pos (seconds + clock)
  if seconds < 0 then return 0
  return u64 (castU64 seconds * nanosPerSecond + fraction)

/-- `date_to_nanoseconds` -/
def dateToNanoseconds? (s : Bytes) : Option ℕ :=
  if s.length < 10 then some 0 else toNanoseconds? (s.take 10)

/-- `time_of_day_to_nanoseconds` -/
def timeOfDayToNanoseconds? (hhMm : Bytes) : Option ℕ := do
  let some hour ← readDigits hhMm 0 2 | return 0
  if hhMm.length < 5 then return 0
  if (← hhMm[2]?) ≠ byte ':' then return 0
  let some minute ← readDigits hhMm 3 2 | return 0
  if 8 ≤ hhMm.length then
    if (← hhMm[5]?) = byte ':' then
      let second := (← readDigits hhMm 6 2).getD 0
      return u64 ((hour * 3600 + minute * 60 + second) * nanosPerSecond)
  return u64 ((hour * 3600 + minute * 60) * nanosPerSecond)

/-! ### No lookup outside the string -/

/-- Digits are read inside the string when there are as many bytes. -/
theorem readDigitsFrom_isSome (s : Bytes) (pos count value : ℕ) (h : pos + count ≤ s.length) :
    (readDigitsFrom s pos count value).isSome := by
  induction count generalizing pos value with
  | zero => rfl
  | succ count ih =>
    have hlt : pos < s.length := by omega
    rw [readDigitsFrom, List.getElem?_eq_getElem hlt, Option.bind_eq_bind, Option.bind_some]
    split
    · rfl
    · exact ih (pos + 1) _ (by omega)

/-- `read_digits` tests that first. -/
theorem readDigits_isSome (s : Bytes) (pos count : ℕ) : (readDigits s pos count).isSome := by
  rw [readDigits]
  split
  · rfl
  · exact readDigitsFrom_isSome s pos count 0 (by omega)

/-- A date reads ten bytes. -/
theorem parseDate_isSome (iso : Bytes) (h : 10 ≤ iso.length) : (parseDate iso).isSome := by
  obtain ⟨year, hyear⟩ := Option.isSome_iff_exists.1 (readDigits_isSome iso 0 4)
  obtain ⟨month, hmonth⟩ := Option.isSome_iff_exists.1 (readDigits_isSome iso 5 2)
  obtain ⟨day, hday⟩ := Option.isSome_iff_exists.1 (readDigits_isSome iso 8 2)
  simp only [parseDate, hyear, hmonth, hday, Option.bind_eq_bind, Option.bind_some,
    List.getElem?_eq_getElem (show 4 < iso.length by omega),
    List.getElem?_eq_getElem (show 7 < iso.length by omega)]
  rcases year with - | year
  · rfl
  dsimp only
  split
  · rfl
  rcases month with - | month
  · rfl
  dsimp only
  split
  · rfl
  rcases day with - | day <;> rfl

/-- A clock reads the byte of its separator, and tests the length before the others. -/
theorem parseClock_isSome (iso : Bytes) (h : 10 < iso.length) : (parseClock iso).isSome := by
  obtain ⟨hour, hhour⟩ := Option.isSome_iff_exists.1 (readDigits_isSome iso 11 2)
  obtain ⟨minute, hminute⟩ := Option.isSome_iff_exists.1 (readDigits_isSome iso 14 2)
  obtain ⟨second, hsecond⟩ := Option.isSome_iff_exists.1 (readDigits_isSome iso 17 2)
  simp only [parseClock, hhour, hminute, hsecond, Option.bind_eq_bind, Option.bind_some,
    List.getElem?_eq_getElem h]
  split
  · rfl
  rcases hour with - | hour
  · rfl
  dsimp only
  -- the source tests for the minutes, and later for the seconds
  by_cases h16 : iso.length < 16
  · simp only [h16, if_true]; rfl
  simp only [h16, if_false, List.getElem?_eq_getElem (show 13 < iso.length by omega),
    Option.bind_some]
  split
  · rfl
  rcases minute with - | minute
  · rfl
  dsimp only
  by_cases hlt : 16 < iso.length
  · simp only [hlt, if_true, List.getElem?_eq_getElem hlt, Option.bind_some]
    split
    · rcases second with - | second <;> rfl
    · rfl
  · simp only [hlt, if_false]; rfl

/-- The fraction loop tests its position at every turn. -/
theorem fractionLoop_isSome (iso : Bytes) (pos fraction digits : ℕ) :
    (fractionLoop iso pos fraction digits).isSome := by
  fun_induction fractionLoop iso pos fraction digits with
  | case1 pos fraction digits hlt ih1 ih2 =>
    rw [List.getElem?_eq_getElem hlt, Option.bind_eq_bind, Option.bind_some]
    split
    · split
      · exact ih1 _
      · exact ih2
    · rfl
  | case2 => rfl

/-- The point of a fraction is looked for inside the string only. -/
theorem parseFraction_isSome (iso : Bytes) (pos : ℕ) : (parseFraction iso pos).isSome := by
  rw [parseFraction]
  by_cases hlt : pos < iso.length
  · obtain ⟨r, hr⟩ := Option.isSome_iff_exists.1 (fractionLoop_isSome iso (pos + 1) 0 0)
    simp only [hlt, if_true, List.getElem?_eq_getElem hlt, hr, Option.bind_eq_bind,
      Option.bind_some]
    split <;> rfl
  · simp only [hlt, if_false]; rfl

/-- An offset that is cut short is not read beyond its end. -/
theorem parseOffset_isSome (iso : Bytes) (pos : ℕ) (seconds : ℤ) :
    (parseOffset iso pos seconds).isSome := by
  rw [parseOffset]
  by_cases hlt : pos < iso.length
  · obtain ⟨hour, hhour⟩ := Option.isSome_iff_exists.1 (readDigits_isSome iso (pos + 1) 2)
    simp only [hlt, if_true, List.getElem?_eq_getElem hlt, hhour, Option.bind_eq_bind,
      Option.bind_some]
    split
    · rcases hour with - | hour
      · rfl
      -- the minutes are read wherever the colon test puts them
      have hminute : ∀ p, ∃ minute, readDigits iso p 2 = some minute := fun p ↦
        Option.isSome_iff_exists.1 (readDigits_isSome iso p 2)
      by_cases h3 : pos + 3 < iso.length
      · obtain ⟨minute, hmin⟩ := hminute (if iso[pos + 3] == byte ':' then pos + 4 else pos + 3)
        simp only [h3, if_true, List.getElem?_eq_getElem h3, Option.map_some, Option.bind_some, hmin]
        rfl
      · obtain ⟨minute, hmin⟩ := hminute (pos + 3)
        simp only [h3, if_false, Bool.false_eq_true, hmin, Option.bind_some]
        rfl
    · rfl
  · simp only [hlt, if_false]
    rfl

/-- **The whole parser stays inside**, for every string. -/
theorem toNanoseconds?_isSome (iso : Bytes) : (toNanoseconds? iso).isSome := by
  rw [toNanoseconds?]
  by_cases hlen : iso.length < 10
  · simp only [hlen, if_true]; rfl
  obtain ⟨days, hdays⟩ := Option.isSome_iff_exists.1 (parseDate_isSome iso (by omega))
  simp only [hlen, if_false, hdays, Option.bind_eq_bind, Option.bind_some]
  rcases days with - | days
  · rfl
  by_cases h10 : iso.length = 10
  · simp only [h10, if_true]; rfl
  obtain ⟨clock, hclock⟩ := Option.isSome_iff_exists.1 (parseClock_isSome iso (by omega))
  simp only [h10, if_false, hclock, Option.bind_some]
  rcases clock with - | ⟨clock, pos⟩
  · rfl
  obtain ⟨⟨fraction, pos'⟩, hfraction⟩ := Option.isSome_iff_exists.1 (parseFraction_isSome iso pos)
  obtain ⟨seconds, hseconds⟩ := Option.isSome_iff_exists.1
    (parseOffset_isSome iso pos' (days * 86400 + clock))
  simp only [hfraction, hseconds, Option.bind_some]
  split <;> rfl

/-- The parser of a clock time stays inside, too. -/
theorem timeOfDayToNanoseconds?_isSome (hhMm : Bytes) : (timeOfDayToNanoseconds? hhMm).isSome := by
  obtain ⟨hour, hhour⟩ := Option.isSome_iff_exists.1 (readDigits_isSome hhMm 0 2)
  obtain ⟨minute, hminute⟩ := Option.isSome_iff_exists.1 (readDigits_isSome hhMm 3 2)
  obtain ⟨second, hsecond⟩ := Option.isSome_iff_exists.1 (readDigits_isSome hhMm 6 2)
  simp only [timeOfDayToNanoseconds?, hhour, hminute, hsecond, Option.bind_eq_bind, Option.bind_some]
  rcases hour with - | hour
  · rfl
  dsimp only
  by_cases h5 : hhMm.length < 5
  · simp only [h5, if_true]; rfl
  simp only [h5, if_false, List.getElem?_eq_getElem (show 2 < hhMm.length by omega), Option.bind_some]
  split
  · rfl
  rcases minute with - | minute
  · rfl
  dsimp only
  by_cases h8 : 8 ≤ hhMm.length
  · simp only [h8, if_true, List.getElem?_eq_getElem (show 5 < hhMm.length by omega), Option.bind_some]
    split <;> rfl
  · simp only [h8, if_false]; rfl

/-- `to_nanoseconds`, now that no lookup of it can fail. -/
def toNanoseconds (iso : Bytes) : ℕ := (toNanoseconds? iso).get (toNanoseconds?_isSome iso)

@[simp] theorem some_toNanoseconds (iso : Bytes) : some (toNanoseconds iso) = toNanoseconds? iso :=
  Option.some_get _

/-- `date_to_nanoseconds`, likewise. -/
def dateToNanoseconds (s : Bytes) : ℕ := if s.length < 10 then 0 else toNanoseconds (s.take 10)

theorem some_dateToNanoseconds (s : Bytes) : some (dateToNanoseconds s) = dateToNanoseconds? s := by
  rw [dateToNanoseconds, dateToNanoseconds?]
  split
  · rfl
  · exact some_toNanoseconds _

/-! ### Formatting -/

/-- `%04lld-%02u-%02u` of the date with the given day number. -/
def formatDate (days : ℤ) : Bytes :=
  let (year, month, day) := civilFromDays days
  paddedInt 4 year ++ byte '-' :: padded 2 month ++ byte '-' :: padded 2 day

/-- `to_rfc3339`: `%04lld-%02u-%02uT%02u:%02u:%02u.%09uZ`. -/
def toRfc3339 (nanoseconds : ℕ) : Bytes :=
  let totalSeconds : ℤ := (nanoseconds / nanosPerSecond : ℕ)
  let fraction := nanoseconds % nanosPerSecond
  let days := totalSeconds.tdiv 86400
  let rem := totalSeconds.tmod 86400
  let (days, rem) := if rem < 0 then (days - 1, rem + 86400) else (days, rem)
  formatDate days ++ byte 'T' :: padded 2 (rem / 3600).toNat ++
    byte ':' :: padded 2 (rem % 3600 / 60).toNat ++
    byte ':' :: padded 2 (rem % 60).toNat ++
    byte '.' :: padded 9 fraction ++ [byte 'Z']

/-- `to_date_string` -/
def toDateString (nanoseconds : ℕ) : Bytes :=
  let totalSeconds : ℤ := (nanoseconds / nanosPerSecond : ℕ)
  let days := totalSeconds.tdiv 86400
  formatDate (if totalSeconds.tmod 86400 < 0 then days - 1 else days)

end Alpaca
