import AlpacaCpp.Foundation.Decimal
import Mathlib.Data.List.DropRight

/-!
# Decimal numerals with a point

A `Numeral` is a sign, the digits in front of a point and the digits behind it. It is `Plain` when there is a
digit in front and no needless zero behind: then `text` is its one spelling, without a point when nothing is
behind it.

A printer that works on text trims there. Trailing zeros can be dropped from the text: what is left is the
text of a plain numeral of the same number, or has the bare point at its end (`rdropWhile_pointed`). The point
stops the zeros of the whole part from being dropped, which is why the lemma is about `pointed` numerals only.
-/

namespace Decimal

/-- What is dropped from the end stops at an element that is kept. -/
theorem rdropWhile_append_cons {α : Type} {p : α → Bool} {c : α} (hc : p c = false) (l l' : List α) :
    (l ++ c :: l').rdropWhile p = l ++ c :: l'.rdropWhile p := by
  induction l' using List.reverseRecOn with
  | nil => rw [List.rdropWhile_nil, List.rdropWhile_concat_neg _ _ _ (by simp [hc])]
  | append_singleton l' a ih =>
    have hassoc : l ++ c :: (l' ++ [a]) = (l ++ c :: l') ++ [a] := by simp
    rw [hassoc, List.rdropWhile_concat, List.rdropWhile_concat, ih]
    split
    · rfl
    · exact hassoc.symm

theorem rdropWhile_map {α β : Type} (f : α → β) (p : β → Bool) (l : List α) :
    (l.map f).rdropWhile p = (l.rdropWhile (p ∘ f)).map f := by
  rw [List.rdropWhile, List.rdropWhile, ← List.map_reverse, List.dropWhile_map, List.map_reverse]

/-! ### Digits at the end -/

theorem digit_eq_zero_iff (d : Fin 10) : digit d = byte '0' ↔ d.val = 0 := by
  revert d
  decide

theorem value_concat (ds : List (Fin 10)) (d : Fin 10) : value (ds ++ [d]) = value ds * 10 + d := by
  rw [value, List.foldl_append]
  rfl

/-- A zero at the end adds nothing to a fraction. -/
theorem fraction_concat_zero (ds : List (Fin 10)) : fraction (ds ++ [0]) = fraction ds := by
  rw [fraction, fraction, value_concat, List.length_append, List.length_singleton, pow_succ]
  push_cast
  rw [Fin.val_zero, Nat.cast_zero, add_zero, mul_div_mul_right _ _ (by norm_num)]

/-- Zeros at the end of a fraction do not count. -/
theorem fraction_rdropWhile (ds : List (Fin 10)) :
    fraction (ds.rdropWhile fun d ↦ d.val = 0) = fraction ds := by
  induction ds using List.reverseRecOn with
  | nil => rfl
  | append_singleton ds d ih =>
    rw [List.rdropWhile_concat]
    split
    case isTrue hd =>
      have hzero : d = 0 := Fin.ext (of_decide_eq_true hd)
      rw [ih, hzero, fraction_concat_zero]
    case isFalse => rfl

/-- Dropping zeros off a text is dropping them off its digits. -/
theorem rdropWhile_digits (ds : List (Fin 10)) :
    (digits ds).rdropWhile (· = byte '0') = digits (ds.rdropWhile fun d ↦ d.val = 0) := by
  have hzero : ((fun c : UInt8 ↦ decide (c = byte '0')) ∘ fun d : Fin 10 ↦ digit d) =
      fun d ↦ decide (d.val = 0) := by
    funext d
    exact decide_eq_decide.2 (digit_eq_zero_iff d)
  rw [digits, rdropWhile_map, hzero, digits]

/-! ### Numerals -/

/-- A sign, the digits in front of the point, and those behind it. -/
structure Numeral where
  negative : Bool
  whole : List (Fin 10)
  frac : List (Fin 10)

namespace Numeral

variable (x : Numeral)

/-- The text of the sign. -/
def sign : Bytes := if x.negative then [byte '-'] else []

/-- The text with a point, whatever follows it. -/
def pointed : Bytes := x.sign ++ digits x.whole ++ byte '.' :: digits x.frac

/-- The text, in which there is no point without digits behind it. -/
def text : Bytes := x.sign ++ digits x.whole ++ if x.frac = [] then [] else byte '.' :: digits x.frac

/-- A digit in front of the point, and no zero at the end behind it. -/
structure Plain : Prop where
  whole_ne_nil : x.whole ≠ []
  getLast_ne_zero : x.frac.getLast? ≠ some 0

/-- The number. -/
def number : ℚ :=
  if x.negative then -(value x.whole + fraction x.frac) else value x.whole + fraction x.frac

/-- The numeral without the zeros at its end. -/
def trim : Numeral := { x with frac := x.frac.rdropWhile fun d ↦ d.val = 0 }

variable {x}

/-- What is left without trailing zeros is plain. -/
theorem plain_trim (h : x.whole ≠ []) : x.trim.Plain := by
  refine ⟨h, fun hlast ↦ ?_⟩
  have hne : x.trim.frac ≠ [] := by
    rintro hnil
    simp [hnil] at hlast
  rw [List.getLast?_eq_some_getLast hne] at hlast
  have hzero : (x.trim.frac.getLast hne).val = 0 := congrArg Fin.val (Option.some_inj.1 hlast)
  exact absurd (decide_eq_true hzero) (List.rdropWhile_last_not _ _ hne)

/-- Trailing zeros of the fraction do not change the number. -/
theorem number_trim : x.trim.number = x.number := by
  rw [number, number, trim, fraction_rdropWhile]

/-- **Dropping the zeros from the text**: the point is left at its end if they were all there was behind
it. -/
theorem rdropWhile_pointed :
    x.pointed.rdropWhile (· = byte '0') =
      if x.trim.frac = [] then x.trim.text ++ [byte '.'] else x.trim.text := by
  have hdrop : x.pointed.rdropWhile (· = byte '0') =
      x.sign ++ digits x.whole ++ byte '.' :: digits x.trim.frac := by
    rw [pointed, rdropWhile_append_cons (by decide), rdropWhile_digits]
    rfl
  rw [hdrop, text]
  split
  case isTrue hfrac =>
    rw [hfrac, List.append_nil]
    rfl
  case isFalse hfrac => rfl

end Numeral

end Decimal
