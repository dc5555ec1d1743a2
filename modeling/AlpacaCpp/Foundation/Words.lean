import AlpacaCpp.Foundation.Bytes
import Mathlib.Algebra.Order.Ring.Int
import Mathlib.Algebra.Order.Ring.Nat
import Mathlib.Tactic.NormNum

/-!
# Fixed-width unsigned words

Unsigned C++ arithmetic is arithmetic modulo a power of two. Values are kept as naturals (or, where a
signed literal takes part, as integers) and reduced where the source's type reduces them: `u64` and `u32`
are the reduction, `castU64` the conversion of a signed value. A value in range passes unchanged
(`u64_of_lt`, `castU64_of_nonneg`), and nested reductions collapse to the outermost one (`u32_add_u32`,
`u64_castU64_mul_add`); these are the two ways the reductions leave a proof.

Words also travel as bytes, most significant first, and can hold two numbers side by side.
-/

/-- Reduction to a 64-bit unsigned word. -/
def u64 (x : ℕ) : ℕ := x % 2 ^ 64

/-- `static_cast<uint64_t>` of a signed value. -/
def castU64 (x : ℤ) : ℕ := (x % 2 ^ 64).toNat

/-- Reduction of a possibly negative intermediate to a 32-bit unsigned word. -/
def u32 (x : ℤ) : ℕ := (x % 2 ^ 32).toNat

/-- `static_cast<int32_t>` of a wider signed value. -/
def i32 (x : ℤ) : ℤ := x.bmod (2 ^ 32)

/-- A value that fits is not changed. -/
theorem u64_of_lt {x : ℕ} (h : x < 2 ^ 64) : u64 x = x :=
  Nat.mod_eq_of_lt h

/-- A nonnegative value that fits is not changed. -/
theorem u32_of_lt {x : ℤ} (h₀ : 0 ≤ x) (h : x < 2 ^ 32) : (u32 x : ℤ) = x := by
  rw [u32, Int.emod_eq_of_lt h₀ h, Int.toNat_of_nonneg h₀]

/-- A word inside a sum need not be reduced on the way. -/
theorem u32_add_u32 (x y : ℤ) : u32 (x + u32 y) = u32 (x + y) := by
  have hy : (u32 y : ℤ) = y % 2 ^ 32 := Int.toNat_of_nonneg (Int.emod_nonneg y (by decide))
  rw [hy, u32, u32, Int.add_emod_emod]

theorem castU64_of_nonneg {x : ℤ} (h₀ : 0 ≤ x) (h : x < 2 ^ 64) : (castU64 x : ℤ) = x := by
  rw [castU64, Int.emod_eq_of_lt h₀ h, Int.toNat_of_nonneg h₀]

/-- The cast of a natural number is its last word. -/
theorem castU64_natCast (x : ℕ) : castU64 x = u64 x := by
  rw [castU64, u64]
  omega

/-- A cast, a product and a sum of 64-bit words, reduced once at the end. -/
theorem u64_castU64_mul_add (x : ℤ) (n k : ℕ) :
    (u64 (castU64 x * n + k) : ℤ) = (x * n + k) % 2 ^ 64 := by
  have hcast : (castU64 x : ℤ) = x % 2 ^ 64 :=
    Int.toNat_of_nonneg (Int.emod_nonneg x (by decide))
  rw [u64, Int.natCast_mod, Nat.cast_add, Nat.cast_mul, hcast, Int.add_emod, Int.mul_emod]
  norm_num [Int.add_emod, Int.mul_emod]

/-! Two numbers in one word: the lower one is below `2 ^ k`. -/

theorem mul_two_pow_add_and {b k : ℕ} (h : b < 2 ^ k) (a : ℕ) : (a * 2 ^ k + b) &&& (2 ^ k - 1) = b := by
  rw [Nat.and_two_pow_sub_one_eq_mod, Nat.mul_add_mod', Nat.mod_eq_of_lt h]

theorem mul_two_pow_add_shiftRight {b k : ℕ} (h : b < 2 ^ k) (a : ℕ) : (a * 2 ^ k + b) >>> k = a := by
  rw [Nat.shiftRight_eq_div_pow, Nat.mul_comm, Nat.mul_add_div (Nat.two_pow_pos k), Nat.div_eq_of_lt h,
    Nat.add_zero]

/-- The lowest `count` bytes of a number, the most significant first. -/
def bigEndian : (count x : ℕ) → Bytes
  | 0, _ => []
  | count + 1, x => UInt8.ofNat (x / 256 ^ count % 256) :: bigEndian count x

theorem length_bigEndian (count x : ℕ) : (bigEndian count x).length = count := by
  induction count with
  | zero => rfl
  | succ count ih => rw [bigEndian, List.length_cons, ih]

/-- The number that bytes denote, the most significant first. -/
def ofBigEndian : Bytes → ℕ
  | [] => 0
  | c :: rest => c.toNat * 256 ^ rest.length + ofBigEndian rest

/-- So many bytes hold no more. -/
theorem ofBigEndian_lt (data : Bytes) : ofBigEndian data < 256 ^ data.length := by
  induction data with
  | nil => exact Nat.one_pos
  | cons c rest ih =>
    have hc : c.toNat + 1 ≤ 256 := c.toNat_lt
    calc ofBigEndian (c :: rest) < (c.toNat + 1) * 256 ^ rest.length := by
          rw [ofBigEndian, Nat.add_mul, Nat.one_mul]
          exact Nat.add_lt_add_left ih _
      _ ≤ 256 * 256 ^ rest.length := Nat.mul_le_mul_right _ hc
      _ = 256 ^ (c :: rest).length := (Nat.pow_succ').symm

/-- What lies above the lowest `count` bytes does not show in them. -/
theorem bigEndian_mul_add (count a x : ℕ) : bigEndian count (a * 256 ^ count + x) = bigEndian count x := by
  induction count generalizing a with
  | zero => rfl
  | succ count ih =>
    have hsplit : a * 256 ^ (count + 1) + x = a * 256 * 256 ^ count + x := by
      rw [Nat.pow_succ, Nat.mul_comm (256 ^ count), Nat.mul_assoc]
    have hdigit : (a * 256 * 256 ^ count + x) / 256 ^ count % 256 = x / 256 ^ count % 256 := by
      rw [Nat.add_comm, Nat.add_mul_div_right _ _ (Nat.pow_pos (by decide)), Nat.add_mul_mod_self_right]
    rw [bigEndian, bigEndian, hsplit, hdigit, ih]

/-- **Every byte string is the bytes of its number.** -/
theorem bigEndian_ofBigEndian (data : Bytes) : bigEndian data.length (ofBigEndian data) = data := by
  induction data with
  | nil => rfl
  | cons c rest ih =>
    have hdigit : ofBigEndian (c :: rest) / 256 ^ rest.length % 256 = c.toNat := by
      rw [ofBigEndian, Nat.mul_comm, Nat.mul_add_div (Nat.pow_pos (by decide)),
        Nat.div_eq_of_lt (ofBigEndian_lt rest), Nat.add_zero, Nat.mod_eq_of_lt c.toNat_lt]
    rw [List.length_cons, bigEndian, hdigit, ofBigEndian, bigEndian_mul_add, ih, UInt8.ofNat_toNat]
