import AlpacaCpp.Foundation.Bytes
import Mathlib.Data.Nat.Log
import Mathlib.Data.Rat.Floor
import Mathlib.Tactic.FieldSimp
import Mathlib.Tactic.Ring

/-!
# Decimal numerals as bytes

Fixed-width numerals, written most significant digit first, and their value; and decimal fractions,
truncated to a fixed number of digits. A numeral is a list of ASCII bytes, so that a reader which
works on positions of a byte string meets it as a piece of that string.

Two representations stand side by side. `fixed w n` is the numeral of a number in a given width, and what a
printer produces; `digits ds` is the numeral of a list of digits, leading zeros and all, and what a reader
meets. `exists_digits_eq_fixed` passes from one to the other. The number a reader folds out of a numeral is
`value ds`, which `foldl_digits_sub` states for bytes, with the subtraction of the code of zero in it.
-/

namespace Decimal

/-- The ASCII byte of a digit. -/
def digit (n : ℕ) : UInt8 := UInt8.ofNat (48 + n)

/-- Being an ASCII digit, as byte comparisons say it. -/
def IsDigit (c : UInt8) : Prop := ¬(c < byte '0' ∨ c > byte '9')

instance : DecidablePred IsDigit := fun c ↦
  inferInstanceAs (Decidable (¬(c < byte '0' ∨ c > byte '9')))

/-- The last `w` decimal digits of `n`. -/
def fixed : ℕ → ℕ → Bytes
  | 0, _ => []
  | w + 1, n => fixed w (n / 10) ++ [digit (n % 10)]

/-- A numeral padded with zeros to at least `w` digits, as `printf` pads it. -/
def padded (w n : ℕ) : Bytes := fixed (max w (Nat.log 10 n + 1)) n

/-- The same for a signed number, whose sign counts towards the width. -/
def paddedInt (w : ℕ) (n : ℤ) : Bytes :=
  if n < 0 then byte '-' :: padded (w - 1) n.natAbs else padded w n.toNat

/-- A digit string as bytes. -/
def digits (ds : List (Fin 10)) : Bytes := ds.map fun (d : Fin 10) ↦ digit d.val

/-- The value of a digit string. -/
def value (ds : List (Fin 10)) : ℕ := ds.foldl (fun acc (d : Fin 10) ↦ acc * 10 + d.val) 0

/-! ### Digits -/

theorem digit_toNat {n : ℕ} (h : n < 10) : (digit n).toNat = 48 + n := by
  rw [digit, UInt8.toNat_ofNat', Nat.mod_eq_of_lt (by omega)]

/-- A digit is one. -/
theorem isDigit_digit {n : ℕ} (h : n < 10) : IsDigit (digit n) := by
  have hd := digit_toNat h
  have h0 : (byte '0').toNat = 48 := rfl
  have h9 : (byte '9').toNat = 57 := rfl
  rw [IsDigit, gt_iff_lt, UInt8.lt_iff_toNat_lt, UInt8.lt_iff_toNat_lt, hd, h0, h9]
  omega

/-- The bytes between `0` and `9` are the digits. -/
theorem exists_digit {c : UInt8} (h : IsDigit c) : ∃ n < 10, c = digit n := by
  have hc : 48 ≤ c.toNat ∧ c.toNat ≤ 57 := by
    rw [IsDigit, not_or, gt_iff_lt, UInt8.lt_iff_toNat_lt, UInt8.lt_iff_toNat_lt,
      show (byte '0').toNat = 48 from rfl, show (byte '9').toNat = 57 from rfl] at h
    omega
  refine ⟨c.toNat - 48, by omega, ?_⟩
  rw [← UInt8.toNat_inj, digit_toNat (by omega)]
  omega

/-! ### Fixed width -/

@[simp] theorem length_fixed (w n : ℕ) : (fixed w n).length = w := by
  induction w generalizing n with
  | zero => rfl
  | succ w ih => rw [fixed, List.length_append, ih, List.length_singleton]

/-- Only the last `w` digits are printed. -/
theorem fixed_add_mul (w a n : ℕ) : fixed w (a * 10 ^ w + n) = fixed w n := by
  induction w generalizing n with
  | zero => rfl
  | succ w ih =>
    have hshift : a * 10 ^ (w + 1) = 10 * (a * 10 ^ w) := by
      rw [pow_succ]
      ring
    rw [fixed, hshift, Nat.mul_add_div (by decide), Nat.mul_add_mod, ih, fixed]

/-- The most significant digit in front: the same numeral, read from the other end. -/
theorem fixed_succ (w n : ℕ) : fixed (w + 1) n = digit (n / 10 ^ w % 10) :: fixed w n := by
  induction w generalizing n with
  | zero => simp [fixed]
  | succ w ih =>
    rw [fixed, ih (n / 10), Nat.div_div_eq_div_mul, ← pow_succ', List.cons_append]
    rfl

/-- Padding a number that fits its width prints exactly the width. -/
theorem padded_eq_fixed {w n : ℕ} (hw : 0 < w) (h : n < 10 ^ w) : padded w n = fixed w n := by
  have hlog : Nat.log 10 n < w := Nat.log_lt_of_lt_pow' hw.ne' h
  rw [padded, Nat.max_eq_left hlog]

/-! ### Digit strings and fractions -/

@[simp] theorem digits_nil : digits [] = [] := rfl

@[simp] theorem digits_cons (d : Fin 10) (ds : List (Fin 10)) :
    digits (d :: ds) = digit d :: digits ds := rfl

@[simp] theorem length_digits (ds : List (Fin 10)) : (digits ds).length = ds.length :=
  List.length_map _

@[simp] theorem value_nil : value [] = 0 := rfl

/-- Reading on from a number shifts it by the digits that are still to come. -/
private theorem foldl_digits (acc : ℕ) (ds : List (Fin 10)) :
    ds.foldl (fun acc (d : Fin 10) ↦ acc * 10 + d.val) acc = acc * 10 ^ ds.length + value ds := by
  induction ds generalizing acc with
  | nil => simp
  | cons d ds ih =>
    have hd : value (d :: ds) = (0 * 10 + d.val) * 10 ^ ds.length + value ds := ih _
    rw [List.foldl_cons, ih, hd, List.length_cons, pow_succ]
    ring

theorem value_cons (d : Fin 10) (ds : List (Fin 10)) :
    value (d :: ds) = d * 10 ^ ds.length + value ds := by
  rw [value, List.foldl_cons, foldl_digits, zero_mul, zero_add]

/-- So many digits cannot count further. -/
theorem value_lt (ds : List (Fin 10)) : value ds < 10 ^ ds.length := by
  induction ds with
  | nil => decide
  | cons d ds ih =>
    rw [value_cons, List.length_cons, pow_succ]
    have := d.isLt
    nlinarith

/-- A numeral cut in two. -/
theorem value_append (ds es : List (Fin 10)) :
    value (ds ++ es) = value ds * 10 ^ es.length + value es := by
  induction ds with
  | nil => rw [List.nil_append, value_nil, zero_mul, zero_add]
  | cons d ds ih =>
    rw [List.cons_append, value_cons, value_cons, ih, List.length_append, pow_add]
    ring

/-- Reading the bytes as a number. -/
theorem foldl_digits_sub (ds : List (Fin 10)) :
    (digits ds).foldl (fun n c ↦ n * 10 + (c.toNat - 48)) 0 = value ds := by
  rw [digits, List.foldl_map, value]
  congr 1
  funext n d
  rw [digit_toNat d.isLt, Nat.add_sub_cancel_left]

theorem digits_append (ds es : List (Fin 10)) : digits (ds ++ es) = digits ds ++ digits es :=
  List.map_append

/-- The digits in front of something else are taken, and nothing more. -/
theorem takeWhile_digits (ds : List (Fin 10)) (rest : Bytes) (hrest : ∀ c ∈ rest.head?, ¬IsDigit c) :
    (digits ds ++ rest).takeWhile (fun c ↦ decide (IsDigit c)) = digits ds ∧
      (digits ds ++ rest).dropWhile (fun c ↦ decide (IsDigit c)) = rest := by
  have hdigits : ∀ c ∈ digits ds, decide (IsDigit c) = true := by
    intro c hc
    obtain ⟨d, -, rfl⟩ := List.mem_map.1 hc
    exact decide_eq_true (isDigit_digit d.isLt)
  have hstop : rest.takeWhile (fun c ↦ decide (IsDigit c)) = [] ∧
      rest.dropWhile (fun c ↦ decide (IsDigit c)) = rest := by
    rcases rest with - | ⟨c, rest⟩
    · exact ⟨rfl, rfl⟩
    · have hc : decide (IsDigit c) = false := decide_eq_false (hrest c rfl)
      exact ⟨List.takeWhile_cons_of_neg (by simp [hc]), List.dropWhile_cons_of_neg (by simp [hc])⟩
  rw [List.takeWhile_append_of_pos hdigits, List.dropWhile_append_of_pos hdigits, hstop.1, hstop.2,
    List.append_nil]
  exact ⟨rfl, rfl⟩

/-- A fixed-width numeral is a digit string. -/
theorem exists_digits_eq_fixed (w n : ℕ) :
    ∃ ds, digits ds = fixed w n ∧ ds.length = w ∧ value ds = n % 10 ^ w := by
  induction w with
  | zero => exact ⟨[], rfl, rfl, (Nat.mod_one n).symm⟩
  | succ w ih =>
    obtain ⟨ds, hds, hlen, hval⟩ := ih
    refine ⟨⟨n / 10 ^ w % 10, Nat.mod_lt _ (by decide)⟩ :: ds, ?_, ?_, ?_⟩
    · rw [digits_cons, hds, fixed_succ]
    · rw [List.length_cons, hlen]
    · rw [value_cons, hlen, hval, Nat.mod_pow_succ]
      ring

/-- A digit string after the point, as a rational below one. -/
def fraction (ds : List (Fin 10)) : ℚ := value ds / 10 ^ ds.length

theorem fraction_nonneg (ds : List (Fin 10)) : 0 ≤ fraction ds := by
  rw [fraction]
  positivity

theorem fraction_lt_one (ds : List (Fin 10)) : fraction ds < 1 := by
  rw [fraction, div_lt_one (by positivity)]
  exact_mod_cast value_lt ds

/-- A fraction scaled to whole units and truncated is a quotient of naturals. -/
theorem floor_fraction_mul (ds : List (Fin 10)) (k : ℕ) :
    ⌊fraction ds * 10 ^ k⌋ = ((value ds * 10 ^ k / 10 ^ ds.length : ℕ) : ℤ) := by
  have h := Rat.floor_natCast_div_natCast (value ds * 10 ^ k) (10 ^ ds.length)
  rw [fraction, div_mul_eq_mul_div]
  push_cast at h ⊢
  exact h

end Decimal
