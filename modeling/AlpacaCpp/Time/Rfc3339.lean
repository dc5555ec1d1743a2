import AlpacaCpp.Time.Timestamp
import Mathlib.Tactic.Linarith

/-!
# The timestamps Alpaca sends, and what `to_nanoseconds` makes of them

`Rfc3339` is the shape of a timestamp as data: a date that exists, a clock time, an optional number
of seconds with an optional fraction of any length, and an optional zone. `text` writes it out and
`instant` says what it means, counting days with `Gregorian.dayNumber` and keeping the fraction as a
rational.

Parsing is followed section by section. Each optional part moves the position of everything behind
it, so every section lemma is stated over an arbitrary prefix of the string, and takes the length of
that prefix as the position it starts at. They meet in `toNanoseconds?_text`, which has no range
hypothesis; the range only enters when the word is identified with the instant
(`toNanoseconds?_eq_floor_instant`).

**A fraction may have any number of digits.** The parser stops multiplying at the ninth, and pads a
shorter fraction with zeros. `fractionLoop_of_drop` is the one induction over the digits, and it is stated
for a loop that has already read some of them, because the tenth digit and the first are treated
differently.
-/

namespace Alpaca

open Decimal Gregorian

/-! ### The shape and its meaning

The fields carry their own bounds, so that a value is a timestamp that exists: no 30th of February, no
hour 24, no leap second. The text is not unique. The separator may be one of three bytes, the zone may be
written with a colon or without, and a fraction may end in zeros; the instant does not depend on any of
these. -/

/-- The seconds of a clock time; only they may carry a fraction. -/
structure Seconds where
  second : ℕ
  second_le : second ≤ 59
  fraction : Option (List (Fin 10))

/-- The end of a timestamp. -/
inductive Zone where
  /-- Nothing: UTC. -/
  | absent
  /-- `Z` -/
  | utc
  /-- A sign, `HH`, an optional colon, and `MM`. -/
  | offset (negative colon : Bool) (hour minute : ℕ) (hour_le : hour ≤ 23) (minute_le : minute ≤ 59)

/-- A well-formed timestamp. -/
structure Rfc3339 where
  year : ℕ
  month : ℕ
  day : ℕ
  year_le : year ≤ 9999
  valid : ValidDate year month day
  separator : UInt8
  separator_mem : separator = byte 'T' ∨ separator = byte 't' ∨ separator = byte ' '
  hour : ℕ
  minute : ℕ
  hour_le : hour ≤ 23
  minute_le : minute ≤ 59
  seconds : Option Seconds
  zone : Zone

/-- `YYYY-MM-DD` -/
def dateText (year month day : ℕ) : Bytes :=
  fixed 4 year ++ byte '-' :: (fixed 2 month ++ byte '-' :: fixed 2 day)

/-- `.digits`, or nothing. -/
def fractionText : Option (List (Fin 10)) → Bytes
  | none => []
  | some ds => byte '.' :: Decimal.digits ds

/-- `:SS[.digits]`, or nothing. -/
def secondsText : Option Seconds → Bytes
  | none => []
  | some s => byte ':' :: (fixed 2 s.second ++ fractionText s.fraction)

namespace Zone

/-- The zone as text. -/
def text : Zone → Bytes
  | absent => []
  | utc => [byte 'Z']
  | offset negative colon hour minute _ _ =>
    byte (if negative then '-' else '+') ::
      (fixed 2 hour ++ ((if colon then [byte ':'] else []) ++ fixed 2 minute))

/-- Seconds east of UTC. -/
def seconds : Zone → ℤ
  | absent => 0
  | utc => 0
  | offset negative _ hour minute _ _ =>
    (if negative then -1 else 1) * ((hour : ℤ) * 3600 + minute * 60)

end Zone

namespace Rfc3339

/-- The timestamp as text. -/
def text (t : Rfc3339) : Bytes :=
  dateText t.year t.month t.day ++
    (t.separator :: (fixed 2 t.hour ++ byte ':' :: (fixed 2 t.minute ++
      (secondsText t.seconds ++ t.zone.text))))

/-- The fraction digits, none when there is no fraction. -/
def digits (t : Rfc3339) : List (Fin 10) :=
  (t.seconds.bind Seconds.fraction).getD []

/-- Whole seconds from the epoch to the timestamp, in UTC. -/
def utcSeconds (t : Rfc3339) : ℤ :=
  dayNumber t.year t.month t.day * 86400 +
    ((t.hour : ℤ) * 3600 + t.minute * 60 + (t.seconds.elim 0 Seconds.second : ℕ)) - t.zone.seconds

/-- The instant, in nanoseconds from the epoch. -/
def instant (t : Rfc3339) : ℚ :=
  (t.utcSeconds + fraction t.digits) * 10 ^ 9

end Rfc3339

/-! ### Reading at a position

`s.drop pos = r` says what is left to read at a position. It is handed from section to section. -/

section Remaining

variable {s r : Bytes} {pos : ℕ}

theorem lookup_of_drop {c : UInt8} (h : s.drop pos = c :: r) : s[pos]? = some c := by
  rw [← Nat.add_zero pos, ← List.getElem?_drop, h]
  rfl

theorem drop_succ_of_drop {c : UInt8} (h : s.drop pos = c :: r) : s.drop (pos + 1) = r := by
  rw [← List.drop_drop, h]
  rfl

theorem drop_add_of_drop {l : Bytes} (h : s.drop pos = l ++ r) : s.drop (pos + l.length) = r := by
  rw [← List.drop_drop, h, List.drop_left]

/-- A section that is there lies inside the string. -/
theorem add_length_le_of_drop {l : Bytes} (hl : l ≠ []) (h : s.drop pos = l ++ r) :
    pos + l.length ≤ s.length := by
  have hlen := congrArg List.length h
  have hpos : 0 < l.length := List.length_pos_iff.2 hl
  rw [List.length_drop, List.length_append] at hlen
  omega

/-- The digit loop reads a numeral of its width. -/
theorem readDigitsFrom_of_drop (w n v : ℕ) (h : s.drop pos = fixed w n ++ r) :
    readDigitsFrom s pos w v = some (some (v * 10 ^ w + n % 10 ^ w)) := by
  induction w generalizing pos v with
  | zero => simp [readDigitsFrom, Nat.mod_one]
  | succ w ih =>
    have hd : n / 10 ^ w % 10 < 10 := Nat.mod_lt _ (by decide)
    rw [fixed_succ, List.cons_append] at h
    have hrest := ih (v * 10 + n / 10 ^ w % 10) (drop_succ_of_drop h)
    rw [readDigitsFrom, lookup_of_drop h]
    simp only [Option.bind_eq_bind, Option.bind_some, isDigit_digit hd, not_true_eq_false, if_false,
      digit_toNat hd]
    rw [show (byte '0').toNat = 48 from rfl, Nat.add_sub_cancel_left, hrest, Nat.mod_pow_succ]
    congr 2
    ring

/-- A fixed-width numeral is read back. -/
theorem readDigits_of_drop {w n : ℕ} (hw : 0 < w) (hn : n < 10 ^ w)
    (h : s.drop pos = fixed w n ++ r) : readDigits s pos w = some (some n) := by
  have hne : fixed w n ≠ [] := by
    rw [← List.length_pos_iff, length_fixed]
    exact hw
  have hlen : ¬pos + w > s.length := by
    have := add_length_le_of_drop hne h
    rw [length_fixed] at this
    omega
  rw [readDigits, if_neg hlen, readDigitsFrom_of_drop w n 0 h, zero_mul, zero_add,
    Nat.mod_eq_of_lt hn]

theorem drop_add_of_drop_fixed {w n : ℕ} (h : s.drop pos = fixed w n ++ r) :
    s.drop (pos + w) = r := by
  have := drop_add_of_drop h
  rwa [length_fixed] at this

/-- A test of the source for an optional byte: inside the string, and equal to it. -/
theorem lookup_ne_of_drop {c : UInt8} (h : s.drop pos = r) (hr : r.head? ≠ some c) :
    s[pos]? ≠ some c := by
  rw [← Nat.add_zero pos, ← List.getElem?_drop, h, ← List.head?_eq_getElem?]
  exact hr

end Remaining

/-! ### The sections

Each lemma is about one section of the parser, at its position in the string and with an arbitrary rest
behind it. What the next byte must not be is said of the rest: no colon behind the minutes if there are no
seconds, and no digit behind the fraction. -/

section Sections

variable {s rest : Bytes} {pos : ℕ}

/-- Four, two and two digits, at the front of a string. -/
theorem parseDate_of_lt {year month day : ℕ} (hyear : year < 10 ^ 4) (hmonth : month < 10 ^ 2)
    (hday : day < 10 ^ 2) (h : s.drop 0 = dateText year month day ++ rest) :
    parseDate s = some (some (daysFromCivil year month day)) ∧ s.drop 10 = rest := by
  simp only [dateText, List.append_assoc, List.cons_append] at h
  have hy := readDigits_of_drop (by decide) hyear h
  have h4 := drop_add_of_drop_fixed h
  have h5 := drop_succ_of_drop h4
  have hm := readDigits_of_drop (by decide) hmonth h5
  have h7 := drop_add_of_drop_fixed h5
  have h8 := drop_succ_of_drop h7
  have hd := readDigits_of_drop (by decide) hday h8
  refine ⟨?_, drop_add_of_drop_fixed h8⟩
  simp [parseDate, hy, lookup_of_drop h4, hm, lookup_of_drop h7, hd]

/-- A date that exists, at the front of a string. -/
theorem parseDate_dateText {year month day : ℕ} (hyear : year ≤ 9999)
    (hvalid : ValidDate year month day) (h : s.drop 0 = dateText year month day ++ rest) :
    parseDate s = some (some (dayNumber year month day)) ∧ s.drop 10 = rest := by
  have hmonth : month < 10 ^ 2 := hvalid.month_le.trans_lt (by decide)
  have hday : day < 10 ^ 2 := (hvalid.day_le.trans (daysInMonth_le _ _)).trans_lt (by decide)
  rw [← daysFromCivil_eq_dayNumber hvalid]
  exact parseDate_of_lt (by omega) hmonth hday h

/-- Hour and minute behind a separator. -/
theorem clock_of_drop {sep : UInt8} {hour minute : ℕ} (hhour : hour < 10 ^ 2) (hminute : minute < 10 ^ 2)
    (h : s.drop 10 = sep :: (fixed 2 hour ++ byte ':' :: (fixed 2 minute ++ rest))) :
    readDigits s 11 2 = some (some hour) ∧ s[13]? = some (byte ':') ∧
      readDigits s 14 2 = some (some minute) ∧ ¬s.length < 16 ∧ s.drop 16 = rest := by
  have h11 := drop_succ_of_drop h
  have h13 := drop_add_of_drop_fixed h11
  have h14 := drop_succ_of_drop h13
  have hlen : ¬s.length < 16 := by
    have := congrArg List.length h14
    rw [List.length_drop, List.length_append, length_fixed] at this
    omega
  exact ⟨readDigits_of_drop (by decide) hhour h11, lookup_of_drop h13,
    readDigits_of_drop (by decide) hminute h14, hlen, drop_add_of_drop_fixed h14⟩

/-- The separator and the clock without seconds, when no colon follows them. -/
theorem parseClock_minutes {sep : UInt8} {hour minute : ℕ}
    (hsep : sep = byte 'T' ∨ sep = byte 't' ∨ sep = byte ' ') (hhour : hour < 10 ^ 2)
    (hminute : minute < 10 ^ 2) (hrest : rest.head? ≠ some (byte ':'))
    (h : s.drop 10 = sep :: (fixed 2 hour ++ byte ':' :: (fixed 2 minute ++ rest))) :
    parseClock s = some (some ((hour : ℤ) * 3600 + minute * 60, 16)) ∧ s.drop 16 = rest := by
  have hsep' : ¬(sep ≠ byte 'T' ∧ sep ≠ byte 't' ∧ sep ≠ byte ' ') := by tauto
  obtain ⟨hh, h13, hm, hlen, h16⟩ := clock_of_drop hhour hminute h
  have hcolon := lookup_ne_of_drop h16 hrest
  refine ⟨?_, h16⟩
  by_cases hlt : 16 < s.length
  · rw [List.getElem?_eq_getElem hlt] at hcolon
    simp only [parseClock, lookup_of_drop h, hsep', hh, hlen, h13, hm, hlt,
      Option.bind_eq_bind, Option.bind_some, if_false, if_true, ne_eq, not_true_eq_false,
      List.getElem?_eq_getElem hlt]
    exact if_neg fun heq ↦ hcolon (congrArg some heq)
  · simp [parseClock, lookup_of_drop h, hsep', hh, hlen, h13, hm, hlt]

/-- The separator and the clock with seconds. -/
theorem parseClock_seconds {sep : UInt8} {hour minute second : ℕ}
    (hsep : sep = byte 'T' ∨ sep = byte 't' ∨ sep = byte ' ') (hhour : hour < 10 ^ 2)
    (hminute : minute < 10 ^ 2) (hsecond : second < 10 ^ 2)
    (h : s.drop 10 =
      sep :: (fixed 2 hour ++ byte ':' :: (fixed 2 minute ++ byte ':' :: (fixed 2 second ++ rest)))) :
    parseClock s = some (some ((hour : ℤ) * 3600 + minute * 60 + second, 19)) ∧
      s.drop 19 = rest := by
  have hsep' : ¬(sep ≠ byte 'T' ∧ sep ≠ byte 't' ∧ sep ≠ byte ' ') := by tauto
  obtain ⟨hh, h13, hm, hlen, h16⟩ := clock_of_drop hhour hminute h
  have h17 := drop_succ_of_drop h16
  have hs := readDigits_of_drop (by decide) hsecond h17
  have hlt : 16 < s.length := (List.getElem?_eq_some_iff.1 (lookup_of_drop h16)).1
  refine ⟨?_, drop_add_of_drop_fixed h17⟩
  simp only [parseClock, lookup_of_drop h, hsep', hh, hlen, h13, hm, hlt,
    lookup_of_drop h16, hs, Option.bind_eq_bind, Option.bind_some, if_false, if_true, ne_eq,
    not_true_eq_false]
  rfl

/-- The digit loop, from any state: it stops at the first byte that is not a digit, and what it kept,
padded to nine digits, is the whole digit string truncated to nine. -/
theorem fractionLoop_of_drop (ds : List (Fin 10)) {f k : ℕ} (hk : k ≤ 9)
    (hrest : ∀ c ∈ rest.head?, ¬IsDigit c) (h : s.drop pos = Decimal.digits ds ++ rest) :
    ∃ f' k', fractionLoop s pos f k = some (pos + ds.length, f', k') ∧
      f' * 10 ^ (9 - k') = (f * 10 ^ ds.length + value ds) * 10 ^ (9 - k) / 10 ^ ds.length := by
  induction ds generalizing pos f k with
  | nil =>
    refine ⟨f, k, ?_, by simp⟩
    rw [fractionLoop]
    split
    case isFalse => rfl
    case isTrue hlt =>
      obtain ⟨c, hc⟩ : ∃ c, rest.head? = some c := by
        rw [digits_nil, List.nil_append] at h
        rw [← h, List.head?_drop, List.getElem?_eq_getElem hlt]
        exact ⟨_, rfl⟩
      obtain ⟨r, rfl⟩ := List.head?_eq_some_iff.1 hc
      have hget := lookup_of_drop (show s.drop pos = c :: r from h)
      simp [hget, hrest c hc]
  | cons d ds ih =>
    rw [digits_cons, List.cons_append] at h
    have hd := d.isLt
    have hlt : pos < s.length := (List.getElem?_eq_some_iff.1 (lookup_of_drop h)).1
    have hval : (digit d).toNat - (byte '0').toNat = d := by
      rw [digit_toNat hd, show (byte '0').toNat = 48 from rfl, Nat.add_sub_cancel_left]
    have hstep : fractionLoop s pos f k =
        if k < 9 then fractionLoop s (pos + 1) (f * 10 + d) (k + 1)
        else fractionLoop s (pos + 1) f k := by
      rw [fractionLoop, if_pos hlt, lookup_of_drop h]
      simp only [Option.bind_eq_bind, Option.bind_some, isDigit_digit hd, if_true, hval]
    rw [hstep, value_cons, List.length_cons, ← Nat.add_assoc, Nat.add_right_comm pos]
    rcases Nat.lt_or_ge k 9 with hk' | hk'
    · rw [if_pos hk']
      obtain ⟨f', k', hloop, hf⟩ := ih (f := f * 10 + d) (k := k + 1) hk' (drop_succ_of_drop h)
      refine ⟨f', k', hloop, ?_⟩
      -- one more digit kept: shift the accumulator
      have hpow : 10 ^ (9 - k) = 10 ^ (9 - (k + 1)) * 10 := by
        rw [← pow_succ]
        congr 1
        omega
      rw [hf, hpow, pow_succ, ← mul_assoc, Nat.mul_div_mul_right _ _ (by decide)]
      congr 2
      ring
    · -- nine digits kept already: this one is below the last of them
      rw [if_neg (Nat.not_lt.2 hk')]
      obtain rfl : k = 9 := by omega
      obtain ⟨f', k', hloop, hf⟩ := ih (f := f) (k := 9) le_rfl (drop_succ_of_drop h)
      refine ⟨f', k', hloop, ?_⟩
      have hvs := value_lt ds
      have hv : d.val * 10 ^ ds.length + value ds < 10 ^ (ds.length + 1) := by
        rw [pow_succ]
        nlinarith
      rw [hf, Nat.sub_self, pow_zero, mul_one, mul_one, Nat.mul_comm f, Nat.mul_comm f,
        Nat.mul_add_div (by positivity), Nat.mul_add_div (by positivity),
        Nat.div_eq_of_lt hvs, Nat.div_eq_of_lt hv]

/-- The fraction, when the byte behind it does not extend it. -/
theorem parseFraction_of_drop (fr : Option (List (Fin 10)))
    (hpoint : fr = none → rest.head? ≠ some (byte '.'))
    (hdigit : fr ≠ none → ∀ c ∈ rest.head?, ¬IsDigit c)
    (h : s.drop pos = fractionText fr ++ rest) :
    parseFraction s pos = some (value (fr.getD []) * 10 ^ 9 / 10 ^ (fr.getD []).length,
        pos + (fractionText fr).length) ∧
      s.drop (pos + (fractionText fr).length) = rest := by
  refine ⟨?_, drop_add_of_drop h⟩
  cases fr with
  | none =>
    have hdot := lookup_ne_of_drop h (hpoint rfl)
    by_cases hlt : pos < s.length
    · rw [List.getElem?_eq_getElem hlt, ne_eq, Option.some_inj] at hdot
      simp [parseFraction, hlt, hdot, fractionText]
    · simp [parseFraction, hlt, fractionText]
  | some ds =>
    rw [fractionText, List.cons_append] at h
    have hlt : pos < s.length := (List.getElem?_eq_some_iff.1 (lookup_of_drop h)).1
    obtain ⟨f, k, hloop, hf⟩ := fractionLoop_of_drop ds (f := 0) (k := 0) (by decide)
      (hdigit (by simp)) (drop_succ_of_drop h)
    simp only [parseFraction, hlt, lookup_of_drop h, hloop, Option.bind_eq_bind, Option.bind_some,
      if_true, hf]
    simp [fractionText, Nat.add_assoc, Nat.add_comm]

/-- What can follow the clock: neither a digit nor a point nor a colon. -/
theorem Zone.head_text (z : Zone) :
    ∀ c ∈ z.text.head?, (¬IsDigit c ∧ c ≠ byte '.') ∧ c ≠ byte ':' := by
  cases z with
  | absent => simp [Zone.text]
  | utc => simp [Zone.text]; decide
  | offset negative colon hour minute hh hm => cases negative <;> simp [Zone.text] <;> decide

/-- The zone at the end of the string. -/
theorem parseOffset_text (z : Zone) (seconds : ℤ) (h : s.drop pos = z.text) :
    parseOffset s pos seconds = some (seconds - z.seconds) := by
  cases z with
  | absent =>
    have hlt : ¬pos < s.length := by
      rw [Zone.text, List.drop_eq_nil_iff] at h
      omega
    simp [parseOffset, hlt, Zone.seconds]
  | utc =>
    have hlt : pos < s.length := (List.getElem?_eq_some_iff.1 (lookup_of_drop h)).1
    have hZ : ¬(byte 'Z' = byte '+' ∨ byte 'Z' = byte '-') := by decide
    simp only [parseOffset, hlt, lookup_of_drop h, hZ, Option.bind_eq_bind, Option.bind_some,
      if_true, if_false, Zone.seconds, sub_zero]
    rfl
  | offset negative colon hour minute hh hm =>
    rw [Zone.text] at h
    have hlt : pos < s.length := (List.getElem?_eq_some_iff.1 (lookup_of_drop h)).1
    have h1 := drop_succ_of_drop h
    have hhour := readDigits_of_drop (by decide) (show hour < 10 ^ 2 by omega) h1
    have h3 := drop_add_of_drop_fixed h1
    rw [show pos + 1 + 2 = pos + 3 from rfl] at h3
    have hsign : byte (if negative then '-' else '+') = byte '+' ∨ negative = true := by
      cases negative <;> simp
    have hneg : byte (if negative then '-' else '+') = byte '-' ↔ negative = true := by
      cases negative <;> decide
    have hmin := show minute < 10 ^ 2 by omega
    cases colon with
    | true =>
      rw [if_pos rfl, List.singleton_append] at h3
      have hlt3 : pos + 3 < s.length := (List.getElem?_eq_some_iff.1 (lookup_of_drop h3)).1
      have hminute := readDigits_of_drop (r := []) (by decide) hmin
        (by rw [List.append_nil]; exact drop_succ_of_drop h3)
      simp only [parseOffset, hlt, lookup_of_drop h, hsign, hneg, hhour, hlt3, lookup_of_drop h3,
        hminute, Option.bind_eq_bind, Option.bind_some, Option.map_some, beq_self_eq_true, if_true,
        Option.getD_some, Zone.seconds]
      rfl
    | false =>
      rw [if_neg (by decide), List.nil_append] at h3
      have hminute := readDigits_of_drop (r := []) (by decide) hmin
        (by rw [List.append_nil]; exact h3)
      -- no colon between hours and minutes: the byte there is a digit
      have hd : (digit (minute / 10 ^ 1 % 10) == byte ':') = false := by
        rw [beq_eq_false_iff_ne, ne_eq, ← UInt8.toNat_inj, digit_toNat (Nat.mod_lt _ (by decide)),
          show (byte ':').toNat = 58 from rfl]
        omega
      rw [fixed_succ] at h3
      have hlt3 : pos + 3 < s.length := (List.getElem?_eq_some_iff.1 (lookup_of_drop h3)).1
      simp only [parseOffset, hlt, lookup_of_drop h, hsign, hneg, hhour, hlt3, lookup_of_drop h3,
        hd, hminute, Option.bind_eq_bind, Option.bind_some, Option.map_some, if_true, if_false,
        Bool.false_eq_true, Option.getD_some, Zone.seconds]
      rfl

end Sections

/-! ### The whole

The zone has to stop the fraction, and it does: it is empty or begins with a letter or a sign. Nanoseconds
are kept by truncation, so the word is the floor of the instant, provided the instant is not before the
epoch and its seconds fit. -/

namespace Rfc3339

variable (t : Rfc3339)

/-- Nanoseconds in the fraction, truncated. -/
def fractionNanos : ℕ := value t.digits * 10 ^ 9 / 10 ^ t.digits.length

/-- Clock and fraction together: whichever of the optional parts are there, the position they leave
is that of the zone. -/
theorem parseClock_parseFraction_text {s : Bytes}
    (h : s.drop 10 = t.separator :: (fixed 2 t.hour ++ byte ':' :: (fixed 2 t.minute ++
      (secondsText t.seconds ++ t.zone.text)))) :
    ∃ pos pos', parseClock s = some (some ((t.hour : ℤ) * 3600 + t.minute * 60 +
        (t.seconds.elim 0 Seconds.second : ℕ), pos)) ∧
      parseFraction s pos = some (t.fractionNanos, pos') ∧ s.drop pos' = t.zone.text := by
  have hzone := t.zone.head_text
  have hpoint : t.zone.text.head? ≠ some (byte '.') := fun heq ↦ (hzone _ heq).1.2 rfl
  have hhour := t.hour_le
  have hminute := t.minute_le
  rw [fractionNanos, digits]
  cases hsec : t.seconds with
  -- no seconds: the position is behind the minutes
  | none =>
    rw [hsec, secondsText, List.nil_append] at h
    obtain ⟨hclock, hrest⟩ := parseClock_minutes t.separator_mem
      (show t.hour < 10 ^ 2 by omega) (show t.minute < 10 ^ 2 by omega) (fun heq ↦ (hzone _ heq).2 rfl) h
    obtain ⟨hfrac, hend⟩ := parseFraction_of_drop none (fun _ ↦ hpoint)
      (fun _ c hc ↦ (hzone c hc).1.1) (show s.drop 16 = fractionText none ++ t.zone.text from hrest)
    exact ⟨16, _, by simpa using hclock, hfrac, hend⟩
  | some sec =>
    rw [hsec, secondsText, List.cons_append, List.append_assoc] at h
    obtain ⟨hclock, hrest⟩ := parseClock_seconds t.separator_mem
      (show t.hour < 10 ^ 2 by omega) (show t.minute < 10 ^ 2 by omega)
      (show sec.second < 10 ^ 2 from sec.second_le.trans_lt (by decide)) h
    obtain ⟨hfrac, hend⟩ := parseFraction_of_drop sec.fraction (fun _ ↦ hpoint)
      (fun _ c hc ↦ (hzone c hc).1.1) hrest
    exact ⟨19, _, hclock, hfrac, hend⟩

/-- **Every well-formed timestamp is read to its end.** What the code computes from it is its whole
seconds, then 64-bit arithmetic; nothing is assumed about the range. -/
theorem toNanoseconds?_text :
    toNanoseconds? t.text = some (if t.utcSeconds < 0 then 0
      else u64 (castU64 t.utcSeconds * nanosPerSecond + t.fractionNanos)) := by
  obtain ⟨hdate, h10⟩ := parseDate_dateText t.year_le t.valid (show t.text.drop 0 = _ from rfl)
  obtain ⟨pos, pos', hclock, hfrac, hend⟩ := t.parseClock_parseFraction_text h10
  have hoffset := parseOffset_text t.zone (dayNumber t.year t.month t.day * 86400 +
    ((t.hour : ℤ) * 3600 + t.minute * 60 + (t.seconds.elim 0 Seconds.second : ℕ))) hend
  have hlt : 10 < t.text.length := (List.getElem?_eq_some_iff.1 (lookup_of_drop h10)).1
  have hlen : ¬t.text.length < 10 := by omega
  have hlen' : t.text.length ≠ 10 := by omega
  rw [← utcSeconds] at hoffset
  simp only [toNanoseconds?, hlen, hlen', hdate, hclock, hfrac, hoffset, Option.bind_eq_bind,
    Option.bind_some, if_false]
  split <;> rfl

/-- The instant in whole nanoseconds. -/
theorem floor_instant : ⌊t.instant⌋ = t.utcSeconds * 10 ^ 9 + t.fractionNanos := by
  have hsplit : t.instant = ((t.utcSeconds * 10 ^ 9 : ℤ) : ℚ) + fraction t.digits * 10 ^ 9 := by
    rw [instant]
    push_cast
    ring
  rw [hsplit, Int.floor_intCast_add, floor_fraction_mul, fractionNanos]

theorem fractionNanos_lt : t.fractionNanos < 10 ^ 9 := by
  rw [fractionNanos, Nat.div_lt_iff_lt_mul (by positivity), Nat.mul_comm]
  exact Nat.mul_lt_mul_of_pos_left (value_lt _) (by positivity)

/-- **`to_nanoseconds` returns the instant**, truncated to whole nanoseconds, whenever that instant is
one a 64-bit count of nanoseconds can name. -/
theorem toNanoseconds?_eq_floor_instant (h₀ : 0 ≤ t.instant) (h : t.instant < 2 ^ 64) :
    toNanoseconds? t.text = some ⌊t.instant⌋.toNat := by
  have hfloor := t.floor_instant
  have hfrac := t.fractionNanos_lt
  have hlo : 0 ≤ ⌊t.instant⌋ := Int.floor_nonneg.2 h₀
  have hhi : ⌊t.instant⌋ < 2 ^ 64 := by
    rw [Int.floor_lt]
    exact_mod_cast h
  have hsec : 0 ≤ t.utcSeconds := by omega
  have hcast := castU64_of_nonneg hsec (by omega)
  have hsum : castU64 t.utcSeconds * nanosPerSecond + t.fractionNanos = ⌊t.instant⌋.toNat := by
    rw [nanosPerSecond]
    omega
  rw [t.toNanoseconds?_text, if_neg (not_lt.2 hsec), hsum, u64_of_lt (by omega)]

/-- A leap day with all the optional parts, whose offset moves it into March. -/
def leapDay : Rfc3339 where
  year := 2024
  month := 2
  day := 29
  year_le := by decide
  valid := by decide
  separator := byte 'T'
  separator_mem := by decide
  hour := 23
  minute := 30
  hour_le := by decide
  minute_le := by decide
  seconds := some ⟨59, by decide, some [9, 8, 7, 6, 5, 4, 3, 2, 1, 9]⟩
  zone := .offset true false 5 30 (by decide) (by decide)

/-- A leap day, with ten digits of a fraction and an offset. -/
theorem toNanoseconds?_leapDay :
    0 ≤ leapDay.instant ∧ leapDay.instant < 2 ^ 64 ∧
      toNanoseconds? leapDay.text = some ⌊leapDay.instant⌋.toNat := by
  have hsec : leapDay.utcSeconds = 1709269259 := by decide +kernel
  have h₀ : 0 ≤ leapDay.instant := by
    have hfrac := fraction_nonneg leapDay.digits
    rw [instant, hsec]
    positivity
  have h : leapDay.instant < 2 ^ 64 := by
    have hfrac := fraction_lt_one leapDay.digits
    rw [instant, hsec]
    norm_num
    linarith
  exact ⟨h₀, h, leapDay.toNanoseconds?_eq_floor_instant h₀ h⟩

end Rfc3339

end Alpaca
