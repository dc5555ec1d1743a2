import AlpacaCpp.Foundation.Binary64
import AlpacaCpp.Foundation.Numeral

/-!
# `to_string(double)`

Every price and quantity is printed by `snprintf` with `"%.9f"` into a buffer of 64 bytes, copied out of it,
and freed of needless zeros. `snprintf` stores 63 characters at most, and returns the length the text would
have had. The copy takes that many characters: what lies behind the terminator was never stored, and reading
it is `none` here.

`plainlyPrinted_iff` is where this works: as long as the text has 63 characters, which is up to 53 digits in
front of the point, or 52 and a sign. So the two bounds on the value are not symmetric.

The argument goes through numerals. A double in fixed notation is a sign, some digits, a point and nine
digits (`exists_numeral`), so its length is known from the value (`length_fixedNotation`), and trimming
takes the zeros off behind the point, and the point if nothing is left there (`trimZeros_pointed`). Neither
changes the number, which is the value rounded to nine digits. Where the text is too long, the copy ends in
the terminator or reads on behind it, and no numeral is spelled with a terminator (`zero_notMem_text`).
-/

namespace Alpaca

open Decimal

/-! ### `snprintf` -/

/-- `"%.9f"`: a sign, the digits in front of the point, and nine behind it. -/
def fixedNotation (v : FiniteDouble) : Bytes :=
  (if v.negative then [byte '-'] else []) ++ padded 1 (v.units 9 / 10 ^ 9) ++
    byte '.' :: fixed 9 (v.units 9 % 10 ^ 9)

/-- What `snprintf` stores in a buffer. -/
def stored (size : ℕ) (text : Bytes) : Bytes := text.take (size - 1) ++ [0]

/-- `std::string(buffer, count)`, of what was stored. -/
def copied (buffer : Bytes) (count : ℕ) : Option Bytes :=
  if count ≤ buffer.length then some (buffer.take count) else none

/-- `to_string(double)` behind the copy. -/
def trimZeros (s : Bytes) : Bytes :=
  let s :=
    if byte '.' ∈ s then
      let s := s.rdropWhile (· = byte '0')
      if s.getLast? = some (byte '.') then s.dropLast else s
    else s
  if s = [] then bytes "0" else s

/-- `to_string(double)` -/
def doubleToString : Double → Option Bytes
  | .nan => some []
  | .infinity _ => some []
  | .finite v =>
    let text := fixedNotation v
    if text.length = 0 then some [] else (copied (stored 64 text) text.length).map trimZeros

/-! ### The text -/

variable (v : FiniteDouble)

/-- Quotient and remainder, put together as a fraction. -/
theorem natCast_div_add_mod_div (u : ℕ) {b : ℕ} (hb : b ≠ 0) :
    ((u / b : ℕ) : ℚ) + (u % b : ℕ) / b = u / b := by
  have hb' : (b : ℚ) ≠ 0 := Nat.cast_ne_zero.2 hb
  rw [eq_div_iff hb', add_mul, div_mul_cancel₀ _ hb']
  exact_mod_cast Nat.div_add_mod' u b

/-- So many units of the ninth place, behind a sign, are a numeral with nine digits behind the point. -/
theorem exists_numeral_of_units (negative : Bool) (units : ℕ) : ∃ x : Numeral,
    (if negative then [byte '-'] else []) ++ padded 1 (units / 10 ^ 9) ++
        byte '.' :: fixed 9 (units % 10 ^ 9) = x.pointed ∧ x.whole ≠ [] ∧
      x.number = if negative then -((units : ℚ) / 10 ^ 9) else (units : ℚ) / 10 ^ 9 := by
  have hfits : units / 10 ^ 9 < 10 ^ max 1 (Nat.log 10 (units / 10 ^ 9) + 1) :=
    (Nat.lt_pow_succ_log_self (by decide) _).trans_le
      (Nat.pow_le_pow_right (by decide) (Nat.le_max_right 1 _))
  obtain ⟨whole, hwhole, hlength, hvalue⟩ :=
    exists_digits_eq_fixed (max 1 (Nat.log 10 (units / 10 ^ 9) + 1)) (units / 10 ^ 9)
  obtain ⟨frac, hfrac, hnine, hrest⟩ := exists_digits_eq_fixed 9 (units % 10 ^ 9)
  rw [Nat.mod_eq_of_lt hfits] at hvalue
  rw [Nat.mod_mod] at hrest
  refine ⟨⟨negative, whole, frac⟩, ?_, ?_, ?_⟩
  · rw [padded, ← hwhole, ← hfrac]
    rfl
  · rintro rfl
    rw [List.length_nil] at hlength
    omega
  · have hsum := natCast_div_add_mod_div units (show 10 ^ 9 ≠ 0 by decide)
    rw [Nat.cast_pow, Nat.cast_ofNat] at hsum
    simp only [Numeral.number, fraction, hvalue, hrest, hnine, hsum]

/-- The numeral that is printed, with its nine digits behind the point. -/
theorem exists_numeral : ∃ x : Numeral, fixedNotation v = x.pointed ∧ x.whole ≠ [] ∧
    x.number = v.rounded 9 :=
  exists_numeral_of_units v.negative (v.units 9)

/-- The length of the text. -/
theorem length_fixedNotation : (fixedNotation v).length =
    (if v.negative then 1 else 0) + (Nat.log 10 (v.units 9 / 10 ^ 9) + 1) + 10 := by
  rw [fixedNotation, List.length_append, List.length_append, List.length_cons, length_fixed, padded,
    length_fixed, Nat.max_eq_right (Nat.le_add_left 1 _)]
  split <;> rfl

/-- **When the text fits into the buffer**, its terminator included. -/
theorem length_fixedNotation_lt_iff :
    (fixedNotation v).length < 64 ↔ -10 ^ 52 < v.value ∧ v.value < 10 ^ 53 := by
  have hnonneg := v.magnitude_nonneg
  have hdigits : ∀ k, 16 ≤ k → (Nat.log 10 (v.units 9 / 10 ^ 9) < k ↔ v.magnitude < 10 ^ k) := by
    intro k hk
    rw [← v.units_lt_iff hk, pow_add, ← Nat.div_lt_iff_lt_mul (Nat.pow_pos (by decide))]
    refine ⟨fun hlog ↦ ?_, Nat.log_lt_of_lt_pow' (by omega)⟩
    exact (Nat.lt_pow_succ_log_self (by decide) _).trans_le (Nat.pow_le_pow_right (by decide) hlog)
  rw [length_fixedNotation, FiniteDouble.value, FiniteDouble.signed]
  split
  · have hlength : 1 + (Nat.log 10 (v.units 9 / 10 ^ 9) + 1) + 10 < 64 ↔
        Nat.log 10 (v.units 9 / 10 ^ 9) < 52 := by omega
    rw [hlength, hdigits 52 (by decide), neg_lt_neg_iff]
    exact ⟨fun h ↦ ⟨h, by linarith [pow_pos (show (0 : ℚ) < 10 by norm_num) 53]⟩, And.left⟩
  · have hlength : 0 + (Nat.log 10 (v.units 9 / 10 ^ 9) + 1) + 10 < 64 ↔
        Nat.log 10 (v.units 9 / 10 ^ 9) < 53 := by omega
    rw [hlength, hdigits 53 (by decide)]
    exact ⟨fun h ↦ ⟨by linarith [pow_pos (show (0 : ℚ) < 10 by norm_num) 52], h⟩, And.right⟩

/-! ### What is left of the text -/

/-- A numeral is spelled with a sign, digits and a point. -/
theorem mem_text {x : Numeral} {c : UInt8} (hc : c ∈ x.text) :
    c = byte '-' ∨ c = byte '.' ∨ ∃ d : Fin 10, c = digit d := by
  have hdigits : ∀ {ds : List (Fin 10)}, c ∈ digits ds → ∃ d : Fin 10, c = digit d := by
    intro ds hds
    obtain ⟨d, -, rfl⟩ := List.mem_map.1 hds
    exact ⟨d, rfl⟩
  rw [Numeral.text, Numeral.sign, List.mem_append, List.mem_append] at hc
  rcases hc with (hsign | hwhole) | hfrac
  · split at hsign
    · exact Or.inl (List.mem_singleton.1 hsign)
    · exact absurd hsign List.not_mem_nil
  · exact Or.inr (Or.inr (hdigits hwhole))
  · split at hfrac
    · exact absurd hfrac List.not_mem_nil
    · rcases List.mem_cons.1 hfrac with hpoint | hfrac
      · exact Or.inr (Or.inl hpoint)
      · exact Or.inr (Or.inr (hdigits hfrac))

/-- No numeral holds the terminator that `snprintf` stores behind it. -/
theorem zero_notMem_text (x : Numeral) : 0 ∉ x.text := by
  have hdigit : ∀ d : Fin 10, (0 : UInt8) ≠ digit d := by decide
  intro hzero
  rcases mem_text hzero with hsign | hpoint | ⟨d, hd⟩
  · exact absurd hsign (by decide)
  · exact absurd hpoint (by decide)
  · exact hdigit d hd

/-- A numeral with digits behind the point ends in one of them. -/
theorem getLast?_text {x : Numeral} (h : x.frac ≠ []) : ∃ d : Fin 10, x.text.getLast? = some (digit d) := by
  have hfrac : x.text = x.sign ++ digits x.whole ++ byte '.' :: digits x.frac := by
    rw [Numeral.text, if_neg h]
  have hlast : (digits x.frac).getLast? = some (digit (x.frac.getLast h)) := by
    rw [digits, List.getLast?_map, List.getLast?_eq_some_getLast h]
    rfl
  refine ⟨x.frac.getLast h, ?_⟩
  rw [hfrac, List.getLast?_append, List.getLast?_cons, hlast]
  rfl

/-- **A numeral keeps what matters.** -/
theorem trimZeros_pointed {x : Numeral} (h : x.whole ≠ []) : trimZeros x.pointed = x.trim.text := by
  have hpoint : byte '.' ∈ x.pointed :=
    List.mem_append_right _ List.mem_cons_self
  have hne : x.trim.text ≠ [] := by
    have hwhole : digits x.whole ≠ [] := fun hnil ↦ h (List.map_eq_nil_iff.1 hnil)
    rw [Numeral.text]
    simp [hwhole, Numeral.trim]
  rw [trimZeros, if_pos hpoint, Numeral.rdropWhile_pointed]
  split
  case isTrue hfrac => simp [hne]
  case isFalse hfrac =>
    have hdigit : ∀ d : Fin 10, some (digit d) ≠ some (byte '.') := by decide
    obtain ⟨d, hd⟩ := getLast?_text hfrac
    simp only [hd, hdigit d, if_false, hne]

/-- A text that ends in anything else keeps all of it. -/
theorem trimZeros_concat (s : Bytes) {c : UInt8} (hzero : c ≠ byte '0') (hpoint : c ≠ byte '.') :
    trimZeros (s ++ [c]) = s ++ [c] := by
  have hdrop : (s ++ [c]).rdropWhile (· = byte '0') = s ++ [c] :=
    List.rdropWhile_concat_neg _ _ _ (by simpa using hzero)
  rw [trimZeros, hdrop]
  simp [hpoint]

/-! ### The buffer -/

/-- A text that fits is copied whole. -/
theorem copied_of_lt {text : Bytes} (h : text.length < 64) : copied (stored 64 text) text.length = some text := by
  have hstored : stored 64 text = text ++ [0] := by
    rw [stored, List.take_of_length_le (Nat.le_of_lt_succ h)]
  rw [copied, hstored, if_pos (by simp), List.take_left' rfl]

/-- Of a text that does not, the terminator is copied or what lies behind it is read. -/
theorem copied_of_le {text : Bytes} (h : 64 ≤ text.length) :
    copied (stored 64 text) text.length = none ∨
      copied (stored 64 text) text.length = some (text.take 63 ++ [0]) := by
  have hlength : (stored 64 text).length = 64 := by
    rw [stored, List.length_append, List.length_take_of_le (by omega), List.length_singleton]
  rw [copied, hlength]
  split
  case isTrue hle => exact Or.inr (congrArg some (List.take_of_length_le (by omega)))
  case isFalse => exact Or.inl rfl

/-- What is asked of `to_string`: it reads what was stored and returns a plain numeral of the double rounded
to nine places. -/
def PlainlyPrinted : Prop :=
  ∃ x : Numeral, doubleToString (.finite v) = some x.text ∧ x.Plain ∧ x.number = v.rounded 9

/-- **Exactly when `to_string` is right**: when the text fits into the buffer. -/
theorem plainlyPrinted_iff : PlainlyPrinted v ↔ -10 ^ 52 < v.value ∧ v.value < 10 ^ 53 := by
  rw [← length_fixedNotation_lt_iff]
  have hne : (fixedNotation v).length ≠ 0 := by
    rw [length_fixedNotation]
    omega
  have hcode : doubleToString (.finite v) =
      (copied (stored 64 (fixedNotation v)) (fixedNotation v).length).map trimZeros := if_neg hne
  constructor
  · rintro ⟨x, hprinted, -, -⟩
    by_contra hlong
    rw [hcode] at hprinted
    rcases copied_of_le (Nat.le_of_not_lt hlong) with hnone | hterminator
    · rw [hnone] at hprinted
      exact absurd hprinted (by simp)
    · rw [hterminator, Option.map_some, trimZeros_concat _ (by decide) (by decide), Option.some_inj] at hprinted
      exact zero_notMem_text x (hprinted ▸ List.mem_append_right _ List.mem_cons_self)
  · intro hfits
    obtain ⟨x, htext, hwhole, hnumber⟩ := exists_numeral v
    refine ⟨x.trim, ?_, Numeral.plain_trim hwhole, Numeral.number_trim.trans hnumber⟩
    rw [hcode, copied_of_lt hfits, htext, Option.map_some, trimZeros_pointed hwhole]

/-- A double whose text is too long: 2²⁰⁰ has 61 digits. -/
def longDouble : FiniteDouble where
  negative := false
  significand := 1
  exponent := 200
  significand_lt := by decide
  le_exponent := by decide
  exponent_le := by decide

/-- **The copy reads past what was stored.** -/
theorem not_plainlyPrinted : doubleToString (.finite longDouble) = none ∧ ¬PlainlyPrinted longDouble := by
  have hunits : longDouble.units 9 = 2 ^ 200 * 10 ^ 9 := by
    have hexact : longDouble.magnitude * 10 ^ 9 = (2 ^ 200 * 10 ^ 9 : ℤ) := by
      rw [FiniteDouble.magnitude, longDouble]
      norm_num
    rw [FiniteDouble.units, hexact, roundTiesEven_intCast]
    rfl
  have hlog : 60 ≤ Nat.log 10 (longDouble.units 9 / 10 ^ 9) := by
    rw [hunits, Nat.mul_div_cancel _ (Nat.pow_pos (by decide))]
    exact Nat.le_log_of_pow_le (by decide) (by norm_num)
  have hlong : ¬(fixedNotation longDouble).length ≤ (stored 64 (fixedNotation longDouble)).length := by
    rw [stored, List.length_append, List.length_take, length_fixedNotation, List.length_singleton]
    omega
  have hnone : doubleToString (.finite longDouble) = none := by
    rw [doubleToString, if_neg (by rw [length_fixedNotation]; omega), copied, if_neg hlong]
    rfl
  refine ⟨hnone, ?_⟩
  rintro ⟨x, hprinted, -⟩
  rw [hnone] at hprinted
  exact absurd hprinted (by simp)

end Alpaca
