import Mathlib.Algebra.Order.Floor.Ring
import Mathlib.Data.Rat.Floor
import Mathlib.Tactic.FieldSimp
import Mathlib.Tactic.Linarith
import Mathlib.Tactic.NormNum
import Mathlib.Tactic.Positivity

/-!
# Doubles as rationals

A finite double is a significand of 53 bits times a power of two (`FiniteDouble`), and so an exact rational.
Nothing here computes in floating point: a question about a double is asked of the rational it denotes, and
`roundTiesEven` is the one place where digits are lost. It is the rounding of IEEE arithmetic and of
`printf`: to the nearest integer, and to the even one of two that are equally near.

`units places` is a magnitude counted in units of a decimal place, after that rounding. What a printer of
fixed-point text needs to know is how many digits it takes, and rounding might in principle carry a magnitude
over a power of ten. **From 10¹⁶ on it does not** (`units_lt_iff`): a double that large is a whole number, so
there is nothing to round, and one that is not whole lies below 2⁵³, half a unit and more away.
-/

/-! ### Rounding -/

/-- The nearest integer, ties to even. -/
def roundTiesEven (q : ℚ) : ℤ :=
  if q - ⌊q⌋ < 1 / 2 then ⌊q⌋
  else if 1 / 2 < q - ⌊q⌋ then ⌊q⌋ + 1
  else if Even ⌊q⌋ then ⌊q⌋ else ⌊q⌋ + 1

/-- **The result is a nearest integer.** -/
theorem abs_roundTiesEven_sub_le (q : ℚ) : |roundTiesEven q - q| ≤ 1 / 2 := by
  have hfloor := Int.floor_le q
  have hlt := Int.lt_floor_add_one q
  rw [roundTiesEven, abs_le]
  split_ifs <;> push_cast <;> constructor <;> linarith

theorem roundTiesEven_intCast (k : ℤ) : roundTiesEven k = k := by
  rw [roundTiesEven, Int.floor_intCast, sub_self, if_pos (by norm_num)]

theorem roundTiesEven_nonneg {q : ℚ} (hq : 0 ≤ q) : 0 ≤ roundTiesEven q := by
  have hfloor : 0 ≤ ⌊q⌋ := Int.floor_nonneg.2 hq
  rw [roundTiesEven]
  split_ifs <;> omega

/-! ### Doubles -/

/-- A finite double. -/
structure FiniteDouble where
  negative : Bool
  significand : ℕ
  exponent : ℤ
  significand_lt : significand < 2 ^ 53
  le_exponent : -1074 ≤ exponent
  exponent_le : exponent ≤ 971

/-- A double. -/
inductive Double where
  | nan
  | infinity (negative : Bool)
  | finite (v : FiniteDouble)

namespace FiniteDouble

variable (v : FiniteDouble)

/-- A rational with the sign of a double. -/
def signed (q : ℚ) : ℚ := if v.negative then -q else q

/-- The magnitude of a double. -/
def magnitude : ℚ := v.significand * 2 ^ v.exponent

/-- The rational a double denotes. -/
def value : ℚ := v.signed v.magnitude

theorem magnitude_nonneg : 0 ≤ v.magnitude :=
  mul_nonneg (Nat.cast_nonneg _) (zpow_nonneg (by norm_num) _)

/-- A double is a whole number, or smaller than the first power of two that its significand cannot reach. -/
theorem magnitude_natCast_or_lt : (∃ k : ℕ, v.magnitude = k) ∨ v.magnitude < 2 ^ 53 := by
  rcases le_or_gt 0 v.exponent with hwhole | hfraction
  · refine Or.inl ⟨v.significand * 2 ^ v.exponent.toNat, ?_⟩
    have hpow : (2 : ℚ) ^ v.exponent = 2 ^ v.exponent.toNat := by
      rw [← zpow_natCast, Int.toNat_of_nonneg hwhole]
    rw [magnitude, hpow]
    push_cast
    rfl
  · refine Or.inr ?_
    have hpow : (2 : ℚ) ^ v.exponent ≤ 1 := zpow_le_one_of_nonpos₀ (by norm_num) hfraction.le
    have hlt : (v.significand : ℚ) < 2 ^ 53 := by exact_mod_cast v.significand_lt
    calc v.magnitude ≤ v.significand * 1 := mul_le_mul_of_nonneg_left hpow (Nat.cast_nonneg _)
      _ < 2 ^ 53 := by rwa [mul_one]

/-! ### Fixed-point rounding -/

/-- The magnitude in units of the `places`-th decimal place. -/
def units (places : ℕ) : ℕ := (roundTiesEven (v.magnitude * 10 ^ places)).toNat

/-- The double rounded to so many decimal places. -/
def rounded (places : ℕ) : ℚ := v.signed (v.units places / 10 ^ places)

/-- The units are a natural number because the magnitude is not negative. -/
theorem cast_units (places : ℕ) : (v.units places : ℚ) = roundTiesEven (v.magnitude * 10 ^ places) := by
  have hnonneg := roundTiesEven_nonneg (mul_nonneg v.magnitude_nonneg (by positivity : (0 : ℚ) ≤ 10 ^ places))
  have hcast : ((v.units places : ℤ) : ℚ) = roundTiesEven (v.magnitude * 10 ^ places) := by
    rw [units, Int.toNat_of_nonneg hnonneg]
  exact_mod_cast hcast

/-- **Rounding does not cross a large power of ten**: what is that large is a whole number already. -/
theorem units_lt_iff {places k : ℕ} (hk : 16 ≤ k) :
    v.units places < 10 ^ (k + places) ↔ v.magnitude < 10 ^ k := by
  have hpos : (0 : ℚ) < 10 ^ places := by positivity
  have hcast : v.units places < 10 ^ (k + places) ↔
      (roundTiesEven (v.magnitude * 10 ^ places) : ℚ) < 10 ^ k * 10 ^ places := by
    rw [← cast_units, ← pow_add]
    exact_mod_cast Iff.rfl
  rw [hcast]
  rcases v.magnitude_natCast_or_lt with ⟨m, hm⟩ | hsmall
  · -- A whole number has whole units, and both sides compare the same integers.
    have hround : roundTiesEven (v.magnitude * 10 ^ places) = (m * 10 ^ places : ℕ) := by
      have hwhole := roundTiesEven_intCast (m * 10 ^ places : ℕ)
      rw [hm]
      push_cast at hwhole ⊢
      exact hwhole
    rw [hround, hm]
    push_cast
    exact mul_lt_mul_iff_of_pos_right hpos
  · -- Anything else is so small that both sides hold.
    have hbound : (2 : ℚ) ^ 53 + 1 ≤ 10 ^ k :=
      le_trans (by norm_num) (pow_le_pow_right₀ (by norm_num : (1 : ℚ) ≤ 10) hk)
    have herror := (abs_le.1 (abs_roundTiesEven_sub_le (v.magnitude * 10 ^ places))).2
    have hone : (1 : ℚ) ≤ 10 ^ places := one_le_pow₀ (by norm_num)
    refine iff_of_true ?_ (by linarith)
    nlinarith

end FiniteDouble
