import AlpacaCpp.Time.Rfc3339

/-!
# What `to_nanoseconds` reads beyond well-formed timestamps

The parser of `to_nanoseconds` asks for digits and separators in their places and for nothing else: a
field may hold any two digits, and whatever follows the last field it recognises is ignored. `Lenient`
is that shape as data. Every string has the shape or is read as 0 (`Lenient.exists_text_eq`), and what
a string of the shape is read as is known (`Lenient.toNanoseconds?_text`). So a string that is no
timestamp is read as 0 if and only if it does not have the shape, or its count happens to vanish
(`toNanoseconds?_eq_zero_of_not_wellFormed_iff`).

The shape is found section by section, from what the parser has accepted: each section that returns a
value has consumed digits and separators that can be written back (`exists_dateText_of_parseDate`,
`exists_clock_of_parseClock`). The optional parts are the ones where the parser gives nothing back: there
the shape keeps the rest of the string as it is (`LenientClock.tail`), and an offset that is cut short, or
is no offset, counts for nothing (`lenientOffset`).

Days are counted by `lenientDay`, which agrees with the calendar where there is a date and runs on where
there is none, as `days_from_civil` does: February 30 is March 2.
-/

namespace Alpaca

open Decimal Gregorian

/-! ### The shape

A date of digits, alone or with a clock of digits behind it, and behind the clock a tail of any bytes. The
last three fields say that the tail does not go on with what is absent, so that a string has the shape in
one way only. -/

/-- The part behind the date, as far as the parser recognises it, and the rest. -/
structure LenientClock where
  separator : UInt8
  separator_mem : separator = byte 'T' ∨ separator = byte 't' ∨ separator = byte ' '
  hour : ℕ
  hour_lt : hour < 10 ^ 2
  minute : ℕ
  minute_lt : minute < 10 ^ 2
  second : Option ℕ
  second_lt : ∀ n ∈ second, n < 10 ^ 2
  fraction : Option (List (Fin 10))
  tail : Bytes
  /-- The rest does not go on with what is absent. -/
  not_colon : second = none → fraction = none → tail.head? ≠ some (byte ':')
  not_point : fraction = none → tail.head? ≠ some (byte '.')
  not_digit : fraction ≠ none → ∀ c ∈ tail.head?, ¬IsDigit c

/-- `dddd-dd-dd`, alone or with a clock behind it. -/
structure Lenient where
  year : ℕ
  year_lt : year < 10 ^ 4
  month : ℕ
  month_lt : month < 10 ^ 2
  day : ℕ
  day_lt : day < 10 ^ 2
  clock : Option LenientClock

/-- `:dd`, or nothing. -/
def lenientSecondText : Option ℕ → Bytes
  | none => []
  | some n => byte ':' :: fixed 2 n

def LenientClock.text (c : LenientClock) : Bytes :=
  c.separator :: (fixed 2 c.hour ++ byte ':' :: (fixed 2 c.minute ++
    (lenientSecondText c.second ++ (fractionText c.fraction ++ c.tail))))

def Lenient.text (l : Lenient) : Bytes :=
  dateText l.year l.month l.day ++ l.clock.elim [] LenientClock.text

/-- A clock that stands on a dial, a fraction only behind seconds and with at least one digit, and
behind them a zone and nothing else. -/
structure LenientClock.WellFormed (c : LenientClock) : Prop where
  hour_le : c.hour ≤ 23
  minute_le : c.minute ≤ 59
  second_le : ∀ n ∈ c.second, n ≤ 60
  fraction_ne : c.fraction ≠ some []
  second_ne : c.fraction ≠ none → c.second ≠ none
  tail_eq : c.tail = [byte 'z'] ∨ ∃ z : Zone, c.tail = z.text

/-- A bare date that exists, or a complete timestamp. -/
structure Lenient.WellFormed (l : Lenient) : Prop where
  date : ValidDate l.year l.month l.day
  clock : ∀ c ∈ l.clock, c.WellFormed

/-- `YYYY-MM-DD`, or `YYYY-MM-DD(T|t| )HH:MM[:SS[.digits]][Z|z|(+|-)HH[:]MM]`, every field in its
range. -/
def WellFormed (s : Bytes) : Prop := ∃ l : Lenient, l.text = s ∧ l.WellFormed

/-! ### What it counts for

The fields count for what their digits say, in range or not. `Vanishes` collects the ways to be read as 0
all the same. -/

/-- Two digits at the front. -/
def twoDigits : Bytes → Option ℕ
  | a :: b :: _ =>
    if IsDigit a ∧ IsDigit b then
      some ((a.toNat - (byte '0').toNat) * 10 + (b.toNat - (byte '0').toNat))
    else none
  | _ => none

/-- The minutes of an offset: two digits behind the hour, a colon between them or not, or none. -/
def lenientMinutes : Bytes → ℕ
  | [] => 0
  | c :: r => (twoDigits (if c = byte ':' then r else c :: r)).getD 0

/-- The offset the rest begins with, in seconds: none without a sign and two digits. -/
def lenientOffset : Bytes → ℤ
  | [] => 0
  | c :: r =>
    if c = byte '+' ∨ c = byte '-' then
      (twoDigits r).elim 0 fun hour ↦
        (if c = byte '-' then -1 else 1) * ((hour : ℤ) * 3600 + lenientMinutes (r.drop 2) * 60)
    else 0

namespace Lenient

/-- Seconds from the epoch, with the offset that was read taken off. -/
def seconds (l : Lenient) : ℤ :=
  lenientDay l.year l.month l.day * 86400 + l.clock.elim 0 fun c ↦
    (c.hour : ℤ) * 3600 + c.minute * 60 + c.second.getD 0 - lenientOffset c.tail

/-- Nanoseconds in the fraction, truncated. -/
def nanos (l : Lenient) : ℕ :=
  let ds := (l.clock.bind LenientClock.fraction).getD []
  value ds * 10 ^ 9 / 10 ^ ds.length

/-- The count is a multiple of the word, or, where the parser looks, negative. -/
def Vanishes (l : Lenient) : Prop :=
  l.clock.isSome ∧ l.seconds < 0 ∨ 2 ^ 64 ∣ l.seconds * 10 ^ 9 + l.nanos

end Lenient

/-! ### Reading the shape

The converse of the sections of `Time/Rfc3339`: from a successful read to the digits that were there. -/

section Reading

variable {s : Bytes} {pos w n v : ℕ}

/-- What the digit loop accepts is a numeral. -/
theorem drop_of_readDigitsFrom (h : readDigitsFrom s pos w v = some (some n)) :
    ∃ k < 10 ^ w, n = v * 10 ^ w + k ∧ s.drop pos = fixed w k ++ s.drop (pos + w) := by
  induction w generalizing pos v with
  | zero =>
    obtain rfl : v = n := Option.some.inj (Option.some.inj h)
    exact ⟨0, by decide, by simp, rfl⟩
  | succ w ih =>
    rw [readDigitsFrom, Option.bind_eq_bind, Option.bind_eq_some_iff] at h
    obtain ⟨c, hc, h⟩ := h
    by_cases hdigit : IsDigit c
    case neg => simp [hdigit] at h
    rw [if_neg (not_not.2 hdigit)] at h
    obtain ⟨d, hd, rfl⟩ := exists_digit hdigit
    obtain ⟨k, hk, hn, hdrop⟩ := ih h
    obtain ⟨hlt, hget⟩ := List.getElem?_eq_some_iff.1 hc
    rw [digit_toNat hd, show (byte '0').toNat = 48 from rfl, Nat.add_sub_cancel_left] at hn
    refine ⟨d * 10 ^ w + k, by rw [pow_succ]; nlinarith, by rw [hn, pow_succ]; ring, ?_⟩
    have hdiv : (d * 10 ^ w + k) / 10 ^ w % 10 = d := by
      rw [Nat.mul_comm, Nat.mul_add_div (by positivity), Nat.div_eq_of_lt hk, Nat.add_zero,
        Nat.mod_eq_of_lt hd]
    rw [List.drop_eq_getElem_cons hlt, hget, hdrop, fixed_succ, hdiv, fixed_add_mul,
      List.cons_append, Nat.add_right_comm]
    rfl

/-- A number of `w` digits, written back. -/
theorem drop_of_readDigits (h : readDigits s pos w = some (some n)) :
    n < 10 ^ w ∧ s.drop pos = fixed w n ++ s.drop (pos + w) := by
  rw [readDigits] at h
  split at h
  · cases h
  · obtain ⟨k, hk, rfl, hdrop⟩ := drop_of_readDigitsFrom h
    rw [zero_mul, zero_add] at *
    exact ⟨hk, hdrop⟩

theorem drop_of_lookup {c : UInt8} (h : s[pos]? = some c) : s.drop pos = c :: s.drop (pos + 1) := by
  obtain ⟨hlt, rfl⟩ := List.getElem?_eq_some_iff.1 h
  exact List.drop_eq_getElem_cons hlt

/-- What the parser takes for a date. -/
theorem exists_dateText_of_parseDate {days : ℤ} (h : parseDate s = some (some days)) :
    ∃ year < 10 ^ 4, ∃ month < 10 ^ 2, ∃ day < 10 ^ 2,
      s = dateText year month day ++ s.drop 10 := by
  obtain ⟨year, hyear, h⟩ := Option.bind_eq_some_iff.1 h
  rcases year with - | year
  · simp at h
  obtain ⟨c, h4, h⟩ := Option.bind_eq_some_iff.1 h
  by_cases hc : c = byte '-'
  case neg => simp [hc] at h
  rw [if_neg (not_not.2 hc)] at h
  obtain ⟨month, hmonth, h⟩ := Option.bind_eq_some_iff.1 h
  rcases month with - | month
  · simp at h
  obtain ⟨c', h7, h⟩ := Option.bind_eq_some_iff.1 h
  by_cases hc' : c' = byte '-'
  case neg => simp [hc'] at h
  rw [if_neg (not_not.2 hc')] at h
  obtain ⟨day, hday, h⟩ := Option.bind_eq_some_iff.1 h
  rcases day with - | day
  · simp at h
  subst hc hc'
  obtain ⟨hy, hydrop⟩ := drop_of_readDigits hyear
  obtain ⟨hm, hmdrop⟩ := drop_of_readDigits hmonth
  obtain ⟨hd, hddrop⟩ := drop_of_readDigits hday
  refine ⟨year, hy, month, hm, day, hd, ?_⟩
  simp only [dateText, List.append_assoc, List.cons_append]
  rw [← hddrop, ← drop_of_lookup h7, ← hmdrop, ← drop_of_lookup h4, ← hydrop, List.drop_zero]

/-- What the parser takes for a clock: where seconds could stand, there is no colon, or seconds. -/
theorem exists_clock_of_parseClock {c : ℤ × ℕ} (h : parseClock s = some (some c)) :
    ∃ sep, (sep = byte 'T' ∨ sep = byte 't' ∨ sep = byte ' ') ∧ ∃ hour < 10 ^ 2, ∃ minute < 10 ^ 2,
      s.drop 10 = sep :: (fixed 2 hour ++ byte ':' :: (fixed 2 minute ++ s.drop 16)) ∧
      (s[16]? = some (byte ':') → ∃ second < 10 ^ 2,
        s.drop 16 = byte ':' :: (fixed 2 second ++ s.drop 19)) := by
  obtain ⟨sep, h10, h⟩ := Option.bind_eq_some_iff.1 h
  by_cases hsep : sep ≠ byte 'T' ∧ sep ≠ byte 't' ∧ sep ≠ byte ' '
  · simp [hsep] at h
  rw [if_neg hsep] at h
  obtain ⟨hour, hhour, h⟩ := Option.bind_eq_some_iff.1 h
  rcases hour with - | hour
  · simp at h
  dsimp only at h
  by_cases hlen : s.length < 16
  · simp [hlen] at h
  rw [if_neg hlen] at h
  obtain ⟨c', h13, h⟩ := Option.bind_eq_some_iff.1 h
  by_cases hc' : c' = byte ':'
  case neg => simp [hc'] at h
  rw [if_neg (not_not.2 hc')] at h
  obtain ⟨minute, hminute, h⟩ := Option.bind_eq_some_iff.1 h
  rcases minute with - | minute
  · simp at h
  subst hc'
  obtain ⟨hh, hhdrop⟩ := drop_of_readDigits hhour
  obtain ⟨hm, hmdrop⟩ := drop_of_readDigits hminute
  refine ⟨sep, by tauto, hour, hh, minute, hm, ?_, fun h16 ↦ ?_⟩
  · rw [← hmdrop, ← drop_of_lookup h13, ← hhdrop, ← drop_of_lookup h10]
  · -- a colon behind the minutes: then there must be seconds
    have hlt : 16 < s.length := (List.getElem?_eq_some_iff.1 h16).1
    simp only [if_pos hlt, h16, Option.bind_eq_bind, Option.bind_some, if_true] at h
    obtain ⟨second, hsecond, h⟩ := Option.bind_eq_some_iff.1 h
    rcases second with - | second
    · simp at h
    · obtain ⟨hs, hsdrop⟩ := drop_of_readDigits hsecond
      exact ⟨second, hs, by rw [← hsdrop, ← drop_of_lookup h16]⟩

/-- A string of any bytes splits behind its digits. -/
theorem exists_digits_append (r : Bytes) :
    ∃ ds tail, r = Decimal.digits ds ++ tail ∧ ∀ c ∈ tail.head?, ¬IsDigit c := by
  induction r with
  | nil => exact ⟨[], [], rfl, by simp⟩
  | cons c r ih =>
    by_cases hc : IsDigit c
    · obtain ⟨n, hn, rfl⟩ := exists_digit hc
      obtain ⟨ds, tail, rfl, htail⟩ := ih
      exact ⟨⟨n, hn⟩ :: ds, tail, rfl, htail⟩
    · refine ⟨[], c :: r, rfl, fun c' hc' ↦ ?_⟩
      obtain rfl : c = c' := Option.some.inj hc'
      exact hc

/-- Every rest has a fraction at its front, or none. -/
theorem exists_fractionText_append (r : Bytes) :
    ∃ fr tail, r = fractionText fr ++ tail ∧ (fr = none → tail.head? ≠ some (byte '.')) ∧
      (fr ≠ none → ∀ c ∈ tail.head?, ¬IsDigit c) := by
  by_cases hpoint : r.head? = some (byte '.')
  · obtain ⟨r, rfl⟩ := List.head?_eq_some_iff.1 hpoint
    obtain ⟨ds, tail, rfl, htail⟩ := exists_digits_append r
    exact ⟨some ds, tail, rfl, by simp, fun _ ↦ htail⟩
  · exact ⟨none, r, rfl, fun _ ↦ hpoint, fun h ↦ absurd rfl h⟩

/-- Two digits, or what is there instead. -/
theorem readDigits_two (s : Bytes) (pos : ℕ) : readDigits s pos 2 = some (twoDigits (s.drop pos)) := by
  rw [readDigits]
  rcases hdrop : s.drop pos with - | ⟨a, - | ⟨b, r⟩⟩
  · rw [List.drop_eq_nil_iff] at hdrop
    rw [if_pos (by omega), twoDigits]
    simp
  · have hlen := congrArg List.length hdrop
    rw [List.length_drop, List.length_singleton] at hlen
    rw [if_pos (by omega), twoDigits]
    simp
  · have hlen := congrArg List.length hdrop
    rw [List.length_drop, List.length_cons, List.length_cons] at hlen
    rw [if_neg (by omega), twoDigits]
    simp only [readDigitsFrom, lookup_of_drop hdrop, lookup_of_drop (drop_succ_of_drop hdrop),
      Option.bind_eq_bind, Option.bind_some, zero_mul, zero_add]
    by_cases ha : IsDigit a <;> by_cases hb : IsDigit b <;> simp [ha, hb]

/-- The offset, whatever the rest is. -/
theorem parseOffset_eq (s : Bytes) (pos : ℕ) (seconds : ℤ) :
    parseOffset s pos seconds = some (seconds - lenientOffset (s.drop pos)) := by
  rw [parseOffset]
  rcases hdrop : s.drop pos with - | ⟨c, r⟩
  · rw [List.drop_eq_nil_iff] at hdrop
    simp [Nat.not_lt.2 hdrop, lenientOffset]
  · obtain ⟨hlt, hc⟩ := List.getElem?_eq_some_iff.1 (lookup_of_drop hdrop)
    have hr := drop_succ_of_drop hdrop
    simp only [hlt, lookup_of_drop hdrop, if_true, Option.bind_eq_bind, Option.bind_some,
      lenientOffset, readDigits_two s (pos + 1), hr]
    by_cases hsign : c = byte '+' ∨ c = byte '-'
    case neg => simp [hsign]
    simp only [hsign, if_true]
    rcases twoDigits r with - | hour
    · simp
    have hminutes : s.drop (pos + 3) = r.drop 2 := by rw [← hr, List.drop_drop]
    rcases hdrop3 : r.drop 2 with - | ⟨c', r'⟩
    · -- an hour with nothing behind it
      rw [hdrop3, List.drop_eq_nil_iff] at hminutes
      simp only [Nat.not_lt.2 hminutes, if_false, Bool.false_eq_true, readDigits_two,
        List.drop_eq_nil_iff.2 hminutes]
      rfl
    · rw [hdrop3] at hminutes
      obtain ⟨hlt3, hc'⟩ := List.getElem?_eq_some_iff.1 (lookup_of_drop hminutes)
      have hminute : s.drop (if c' = byte ':' then pos + 4 else pos + 3) =
          if c' = byte ':' then r' else c' :: r' := by
        split
        · exact drop_succ_of_drop hminutes
        · exact hminutes
      simp only [hlt3, lookup_of_drop hminutes, if_true, Option.map_some, Option.bind_some,
        readDigits_two, lenientMinutes, beq_iff_eq, hminute]
      rfl

end Reading

/-! ### The whole -/

/-- A clock of the shape is read: its seconds, its fraction, and the position of the rest. -/
theorem LenientClock.parse (c : LenientClock) {s : Bytes} (h : s.drop 10 = c.text) :
    ∃ pos pos', parseClock s =
        some (some ((c.hour : ℤ) * 3600 + c.minute * 60 + (c.second.getD 0 : ℕ), pos)) ∧
      parseFraction s pos = some (value (c.fraction.getD []) * 10 ^ 9 /
        10 ^ (c.fraction.getD []).length, pos') ∧ s.drop pos' = c.tail := by
  obtain ⟨sep, hsep, hour, hhour, minute, hminute, second, hsecond, fr, tail, hcolon, hpoint, hdigit⟩ := c
  rw [text] at h
  rcases second with - | second
  · have hhead : (fractionText fr ++ tail).head? ≠ some (byte ':') := by
      rcases fr with - | ds
      · exact hcolon rfl rfl
      · simp [fractionText]
        decide
    obtain ⟨hclock, hrest⟩ := parseClock_minutes hsep hhour hminute hhead h
    obtain ⟨hfrac, hend⟩ := parseFraction_of_drop fr hpoint hdigit hrest
    exact ⟨16, _, by simpa using hclock, hfrac, hend⟩
  · obtain ⟨hclock, hrest⟩ := parseClock_seconds hsep hhour hminute (hsecond second rfl)
      (by simpa [lenientSecondText] using h)
    obtain ⟨hfrac, hend⟩ := parseFraction_of_drop fr hpoint hdigit hrest
    exact ⟨19, _, hclock, hfrac, hend⟩

namespace Lenient

/-- **Everything of the shape is read**, with the 64-bit arithmetic of the source. -/
theorem toNanoseconds?_text (l : Lenient) :
    toNanoseconds? l.text = some (if l.clock.isSome ∧ l.seconds < 0 then 0
      else u64 (castU64 l.seconds * nanosPerSecond + l.nanos)) := by
  obtain ⟨year, hyear, month, hmonth, day, hday, clock⟩ := l
  obtain ⟨hdate, h10⟩ := parseDate_of_lt hyear hmonth hday
    (show (Lenient.text ⟨year, hyear, month, hmonth, day, hday, clock⟩).drop 0 = _ from rfl)
  rw [daysFromCivil_eq_lenientDay hmonth hday] at hdate
  generalize hs : Lenient.text ⟨year, hyear, month, hmonth, day, hday, clock⟩ = s at *
  -- a bare date returns before the sign is looked at
  rcases clock with - | c
  · have hlen : s.length = 10 := by
      rw [← hs]
      simp [text, dateText]
    simp [toNanoseconds?, hlen, hdate, seconds, nanos]
  · have hlt : 10 < s.length := (List.getElem?_eq_some_iff.1 (lookup_of_drop h10)).1
    obtain ⟨pos, pos', hclock, hfrac, hend⟩ := c.parse h10
    have hlen : ¬s.length < 10 := by omega
    have hlen' : s.length ≠ 10 := by omega
    have hseconds : lenientDay year month day * 86400 + ((c.hour : ℤ) * 3600 + c.minute * 60 +
        (c.second.getD 0 : ℕ)) - lenientOffset c.tail =
        seconds ⟨year, hyear, month, hmonth, day, hday, some c⟩ := by
      rw [seconds, Option.elim_some, add_sub_assoc]
    simp only [toNanoseconds?, hlen, hlen', hdate, hclock, hfrac, parseOffset_eq, hend, hseconds,
      Option.bind_eq_bind, Option.bind_some, if_false, Option.isSome_some, true_and]
    split <;> rfl

/-- **Everything else is read as 0.** -/
theorem exists_text_eq {s : Bytes} (h : toNanoseconds? s ≠ some 0) : ∃ l : Lenient, l.text = s := by
  rw [toNanoseconds?] at h
  by_cases hlen : s.length < 10
  · simp [hlen] at h
  obtain ⟨days, hdate⟩ := Option.isSome_iff_exists.1 (parseDate_isSome s (by omega))
  simp only [hlen, if_false, hdate, Option.bind_eq_bind, Option.bind_some] at h
  rcases days with - | days
  · exact absurd rfl h
  obtain ⟨year, hyear, month, hmonth, day, hday, hs⟩ := exists_dateText_of_parseDate hdate
  by_cases hlen' : s.length = 10
  · rw [List.drop_eq_nil_of_le hlen'.le] at hs
    exact ⟨⟨year, hyear, month, hmonth, day, hday, none⟩, hs.symm⟩
  obtain ⟨clock, hclock⟩ := Option.isSome_iff_exists.1 (parseClock_isSome s (by omega))
  simp only [hlen', if_false, hclock, Option.bind_some] at h
  rcases clock with - | clock
  · exact absurd rfl h
  obtain ⟨sep, hsep, hour, hhour, minute, hminute, h10, hsecond⟩ := exists_clock_of_parseClock hclock
  -- with a colon the seconds have been read, without one the rest begins with something else
  by_cases hcolon : s[16]? = some (byte ':')
  · obtain ⟨second, hlt, h16⟩ := hsecond hcolon
    obtain ⟨fr, tail, h19, hpoint, hdigit⟩ := exists_fractionText_append (s.drop 19)
    refine ⟨⟨year, hyear, month, hmonth, day, hday, some ⟨sep, hsep, hour, hhour, minute, hminute,
      some second, fun n hn ↦ Option.some.inj hn ▸ hlt, fr, tail, by simp, hpoint, hdigit⟩⟩, ?_⟩
    show dateText year month day ++ _ = s
    rw [hs, h10, h16, h19]
    simp [LenientClock.text, lenientSecondText, dateText]
  · obtain ⟨fr, tail, h16, hpoint, hdigit⟩ := exists_fractionText_append (s.drop 16)
    have hhead : fr = none → tail.head? ≠ some (byte ':') := by
      rintro rfl
      rw [show tail = s.drop 16 from h16.symm, List.head?_drop]
      exact hcolon
    refine ⟨⟨year, hyear, month, hmonth, day, hday, some ⟨sep, hsep, hour, hhour, minute, hminute,
      none, by simp, fr, tail, fun _ ↦ hhead, hpoint, hdigit⟩⟩, ?_⟩
    show dateText year month day ++ _ = s
    rw [hs, h10, h16]
    simp [LenientClock.text, lenientSecondText, dateText]

/-- A string of the shape is read as 0 when its count vanishes. -/
theorem toNanoseconds?_text_eq_zero_iff (l : Lenient) :
    toNanoseconds? l.text = some 0 ↔ l.Vanishes := by
  have hword := u64_castU64_mul_add l.seconds nanosPerSecond l.nanos
  rw [l.toNanoseconds?_text, Option.some_inj, Vanishes]
  rw [show ((nanosPerSecond : ℕ) : ℤ) = 10 ^ 9 from rfl] at hword
  rw [Int.dvd_iff_emod_eq_zero, ← hword]
  split
  case isTrue hneg => simp [hneg]
  case isFalse hneg => simp [hneg]

end Lenient

/-- **Malformed strings.** A string that is neither a bare date that exists nor a complete timestamp is
read as 0 if and only if it does not have the shape the parser looks for, or counts for a multiple of
the word, or, with a clock, for an instant before the epoch. -/
theorem toNanoseconds?_eq_zero_of_not_wellFormed_iff (s : Bytes) :
    (¬WellFormed s → toNanoseconds? s = some 0) ↔
      WellFormed s ∨ ∀ l : Lenient, l.text = s → l.Vanishes := by
  constructor
  · intro h
    refine or_iff_not_imp_left.2 fun hbad ↦ ?_
    rintro l rfl
    exact l.toNanoseconds?_text_eq_zero_iff.1 (h hbad)
  · rintro (hwell | hvanish) hbad
    · exact absurd hwell hbad
    · by_contra hne
      obtain ⟨l, rfl⟩ := Lenient.exists_text_eq hne
      exact hne (l.toNanoseconds?_text_eq_zero_iff.2 (hvanish l rfl))

/-- A bare date is well formed only if its day exists. -/
theorem WellFormed.validDate {s : Bytes} (h : WellFormed s) {year month day : ℕ}
    (hyear : readDigits s 0 4 = some (some year)) (hmonth : readDigits s 5 2 = some (some month))
    (hday : readDigits s 8 2 = some (some day)) : ValidDate year month day := by
  obtain ⟨l, rfl, hwell⟩ := h
  have h0 : l.text.drop 0 = fixed 4 l.year ++ byte '-' :: (fixed 2 l.month ++ byte '-' ::
      (fixed 2 l.day ++ l.clock.elim [] LenientClock.text)) := by
    simp [Lenient.text, dateText]
  have h5 := drop_succ_of_drop (drop_add_of_drop_fixed h0)
  have h8 := drop_succ_of_drop (drop_add_of_drop_fixed h5)
  have hy : l.year = year := Option.some.inj (Option.some.inj
    ((readDigits_of_drop (by decide) l.year_lt h0).symm.trans hyear))
  have hm : l.month = month := Option.some.inj (Option.some.inj
    ((readDigits_of_drop (by decide) l.month_lt h5).symm.trans hmonth))
  have hd : l.day = day := Option.some.inj (Option.some.inj
    ((readDigits_of_drop (by decide) l.day_lt h8).symm.trans hday))
  rw [← hy, ← hm, ← hd]
  exact hwell.date

/-- The thirtieth of February is read as the second of March. -/
theorem toNanoseconds?_februaryThirtieth :
    ¬WellFormed (bytes "2022-02-30") ∧
      toNanoseconds? (bytes "2022-02-30") = some 1646179200000000000 := by
  refine ⟨fun h ↦ ?_, rfl⟩
  have hvalid : ValidDate (2022 : ℕ) 2 30 := h.validDate rfl rfl rfl
  exact absurd hvalid (by decide)

end Alpaca
