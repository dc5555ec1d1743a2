import AlpacaCpp.Foundation.Loop
import AlpacaCpp.Options.FrameDecoder

/-!
# No parser of timestamps reads outside its input

The parsers of timestamps live in `Option`, and `none` is a read outside the string or the extension
payload. `lookups_inside` says that none of them ever comes to it, for input of any length, and that the
one loop whose length depends on the input comes to an end.
-/

namespace Alpaca

open Decimal

/-- One turn of the digit loop of the fraction, from the position, the fraction and the number of digits
kept so far. -/
def fractionTurn (iso : Bytes) : ℕ × ℕ × ℕ → Option (Option (ℕ × ℕ × ℕ))
  | (pos, fraction, digits) =>
    if pos < iso.length then do
      let c ← iso[pos]?
      if IsDigit c then
        if digits < 9 then
          return some (pos + 1, fraction * 10 + (c.toNat - (byte '0').toNat), digits + 1)
        else return some (pos + 1, fraction, digits)
      else return none
    else some none

/-- A turn reads inside the string, and goes one byte on or stops. -/
theorem fractionTurn_cases (iso : Bytes) (pos fraction digits : ℕ) :
    (fractionTurn iso (pos, fraction, digits) = some none ∧
      fractionLoop iso pos fraction digits = some (pos, fraction, digits)) ∨
    pos < iso.length ∧ ∃ fraction' digits',
      fractionTurn iso (pos, fraction, digits) = some (some (pos + 1, fraction', digits')) ∧
      fractionLoop iso pos fraction digits = fractionLoop iso (pos + 1) fraction' digits' := by
  rw [fractionTurn, fractionLoop]
  split
  case isTrue hlt =>
    rw [List.getElem?_eq_getElem hlt, Option.bind_eq_bind, Option.bind_some, Option.bind_eq_bind,
      Option.bind_some]
    split
    case isTrue =>
      refine .inr ⟨hlt, ?_⟩
      split
      · exact ⟨_, _, rfl, rfl⟩
      · exact ⟨_, _, rfl, rfl⟩
    case isFalse => exact .inl ⟨rfl, rfl⟩
  case isFalse => exact .inl ⟨rfl, rfl⟩

/-- **The fraction loop ends**, after no more turns than there are bytes left. -/
theorem fractionLoop_ends (iso : Bytes) (pos fraction digits : ℕ) :
    ∃ n ≤ iso.length - pos, ∃ result, Ends (fractionTurn iso) (pos, fraction, digits) n result ∧
      fractionLoop iso pos fraction digits = some result := by
  have hdefined : ∀ s, fractionTurn iso s ≠ none := by
    rintro ⟨pos, fraction, digits⟩ hs
    obtain ⟨hturn, -⟩ | ⟨-, _, _, hturn, -⟩ := fractionTurn_cases iso pos fraction digits <;>
      cases hs.symm.trans hturn
  have hless : ∀ s t, fractionTurn iso s = some (some t) → iso.length - t.1 < iso.length - s.1 := by
    rintro ⟨pos, fraction, digits⟩ t hs
    obtain ⟨hturn, -⟩ | ⟨hlt, _, _, hturn, -⟩ := fractionTurn_cases iso pos fraction digits
    · cases hs.symm.trans hturn
    · cases hs.symm.trans hturn
      exact Nat.sub_lt_sub_left hlt (Nat.lt_succ_self pos)
  obtain ⟨n, hn, result, hends⟩ :=
    Ends.exists_of_measure (fun s ↦ iso.length - s.1) hdefined hless (pos, fraction, digits)
  refine ⟨n, hn, result, hends, ?_⟩
  refine hends.eq_of_turn (f := fun s ↦ fractionLoop iso s.1 s.2.1 s.2.2) (r := some) ?_ ?_
  · rintro ⟨pos, fraction, digits⟩ hs
    obtain ⟨-, heq⟩ | ⟨-, _, _, hturn, -⟩ := fractionTurn_cases iso pos fraction digits
    · exact heq
    · cases hs.symm.trans hturn
  · rintro ⟨pos, fraction, digits⟩ t hs
    obtain ⟨hturn, -⟩ | ⟨-, _, _, hturn, heq⟩ := fractionTurn_cases iso pos fraction digits
    · cases hs.symm.trans hturn
    · cases hs.symm.trans hturn
      exact heq

/-- **No parser of timestamps reads outside its input**, whatever the input and its length, and the loop
over the digits of a fraction ends wherever it starts. -/
theorem lookups_inside (text data : Bytes) :
    (toNanoseconds? text).isSome ∧ (dateToNanoseconds? text).isSome ∧
      (timeOfDayToNanoseconds? text).isSome ∧
      (∀ pos fraction digits, ∃ n ≤ text.length - pos, ∃ result,
        Ends (fractionTurn text) (pos, fraction, digits) n result ∧
          fractionLoop text pos fraction digits = some result) ∧
      (timestampFromExt? data).isSome := by
  have hdate : (dateToNanoseconds? text).isSome := by
    rw [dateToNanoseconds?]
    split
    · rfl
    · exact toNanoseconds?_isSome _
  exact ⟨toNanoseconds?_isSome text, hdate, timeOfDayToNanoseconds?_isSome text,
    fractionLoop_ends text, timestampFromExt?_isSome data⟩

end Alpaca
