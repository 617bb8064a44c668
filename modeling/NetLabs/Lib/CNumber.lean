/-
NetLabs.Lib.CNumber — C's conversions between its number types.

The integer types that matter for their width are Lean's fixed-width ones;
`long` and `long long` variables that hold times and byte counts are `Int`.
A floating-point value is the rational it stands for. `FloatArith` holds the
rounding of the two formats, so an expression of type `float` is the rounding
of the exact result of its last operation. `FloatArith.exact` rounds nothing,
and `FloatArith.Ieee` is what IEEE 754 promises of any rounding.

A conversion from floating point to an integer type truncates towards zero.
Out of range it is undefined in C; the value here is the one the x86-64
conversion instructions return, the least integer of the type.
-/
import Mathlib.Data.Rat.Floor

namespace NetLabs.Lib

/-- The rounding of `float` and of `double`. -/
structure FloatArith where
  single : ℚ → ℚ
  double : ℚ → ℚ

/-- Arithmetic without rounding. -/
def FloatArith.exact : FloatArith := ⟨id, id⟩

/-- What IEEE 754 promises of the two roundings: they are monotone, they give
numbers that the format represents, and they leave such numbers alone. -/
structure FloatArith.Ieee (f : FloatArith) : Prop where
  single_mono : Monotone f.single
  double_mono : Monotone f.double
  single_idem : ∀ q, f.single (f.single q) = f.single q
  single_exact : ∀ (n : Int) (k : Nat), n.natAbs < 2 ^ 24 → k ≤ 100 →
    f.single (n / 2 ^ k) = n / 2 ^ k
  single_large : ∀ (n : Int) (k : Nat), n.natAbs < 2 ^ 24 → k ≤ 100 →
    f.single (n * 2 ^ k) = n * 2 ^ k
  double_exact : ∀ (n : Int) (k : Nat), n.natAbs < 2 ^ 53 → k ≤ 100 →
    f.double (n / 2 ^ k) = n / 2 ^ k

theorem FloatArith.ieee_exact : FloatArith.exact.Ieee :=
  ⟨monotone_id, monotone_id, fun _ => rfl, fun _ _ _ _ => rfl, fun _ _ _ _ => rfl,
    fun _ _ _ _ => rfl⟩

section Ieee

variable {f : FloatArith} (ieee : f.Ieee) {q : ℚ}

include ieee

/-- A rounding does not carry a number past a power of two. -/
theorem FloatArith.Ieee.le_single (k : Nat) (few : k ≤ 100) (h : 1 / 2 ^ k ≤ q) :
    1 / 2 ^ k ≤ f.single q := by
  have bound : f.single (1 / 2 ^ k) = 1 / 2 ^ k := by
    simpa using ieee.single_exact 1 k (by decide) few
  rw [← bound]
  exact ieee.single_mono h

theorem FloatArith.Ieee.le_double (k : Nat) (few : k ≤ 100) (h : 1 / 2 ^ k ≤ q) :
    1 / 2 ^ k ≤ f.double q := by
  have bound : f.double (1 / 2 ^ k) = 1 / 2 ^ k := by
    simpa using ieee.double_exact 1 k (by decide) few
  rw [← bound]
  exact ieee.double_mono h

/-- A `float` holds an integer of up to 24 bits. -/
theorem FloatArith.Ieee.single_natCast {n : Nat} (few : n < 2 ^ 24) : f.single n = n := by
  simpa using ieee.single_exact n 0 (by simpa using few) (by decide)

/-- A larger one stays above all of them. -/
theorem FloatArith.Ieee.le_single_natCast {n : Nat} (large : 2 ^ 24 ≤ n) :
    2 ^ 24 ≤ f.single n := by
  have bound : (2 : ℚ) ^ 24 ≤ n := by exact_mod_cast large
  have power := ieee.single_large 1 24 (by decide) (by decide)
  rw [Int.cast_one, one_mul] at power
  exact power ▸ ieee.single_mono bound

/-- A `double` holds an integer of up to 53 bits. -/
theorem FloatArith.Ieee.double_intCast {n : Int} (few : n.natAbs < 2 ^ 53) : f.double n = n := by
  simpa using ieee.double_exact n 0 few (by decide)

theorem FloatArith.Ieee.double_le (n : Int) (few : n.natAbs < 2 ^ 53) (h : q ≤ n) :
    f.double q ≤ n := by
  rw [← ieee.double_intCast few]
  exact ieee.double_mono h

end Ieee

/-- Truncation towards zero. -/
def trunc (q : ℚ) : Int := q.num.tdiv q.den

/-- `(long long) q` and `(long) q`. -/
def toLong (q : ℚ) : Int :=
  if -9223372036854775808 ≤ trunc q ∧ trunc q < 9223372036854775808 then trunc q
  else -9223372036854775808

/-- `(int) q` for a floating-point `q`. -/
def toInt (q : ℚ) : Int :=
  if -2147483648 ≤ trunc q ∧ trunc q < 2147483648 then trunc q else -2147483648

/-- The conversion of a `long long` to `int`: the low 32 bits, signed. -/
def wrapInt (x : Int) : Int := x.bmod 4294967296

/-- From 0 on, truncation rounds down. -/
theorem trunc_of_nonneg {q : ℚ} (nonneg : 0 ≤ q) : trunc q = ⌊q⌋ := by
  rw [trunc, Int.tdiv_eq_ediv_of_nonneg (Rat.num_nonneg.mpr nonneg), Rat.floor_def']

theorem toLong_of_nonneg {q : ℚ} (nonneg : 0 ≤ q) (few : q < 9223372036854775808) :
    toLong q = ⌊q⌋ := by
  have low : 0 ≤ ⌊q⌋ := Int.floor_nonneg.mpr nonneg
  have high : ⌊q⌋ < 9223372036854775808 := Int.floor_lt.mpr (by exact_mod_cast few)
  rw [toLong, trunc_of_nonneg nonneg, if_pos (by omega)]

theorem trunc_neg (q : ℚ) : trunc (-q) = -trunc q := by
  rw [trunc, Rat.neg_num, Rat.neg_den, Int.neg_tdiv, trunc]

/-- Truncation treats both signs alike. -/
theorem toLong_neg {q : ℚ} (nonneg : 0 ≤ q) (few : q < 9223372036854775808) :
    toLong (-q) = -⌊q⌋ := by
  have low : 0 ≤ ⌊q⌋ := Int.floor_nonneg.mpr nonneg
  have high : ⌊q⌋ < 9223372036854775808 := Int.floor_lt.mpr (by exact_mod_cast few)
  rw [toLong, trunc_neg, trunc_of_nonneg nonneg, if_pos (by omega)]

/-- What is not positive does not become positive. -/
theorem toLong_nonpos {q : ℚ} (nonpos : q ≤ 0) : toLong q ≤ 0 := by
  have truncated : trunc q ≤ 0 := by
    have opposite : trunc (-q) = ⌊-q⌋ := trunc_of_nonneg (neg_nonneg.mpr nonpos)
    have : 0 ≤ ⌊-q⌋ := Int.floor_nonneg.mpr (neg_nonneg.mpr nonpos)
    rw [trunc_neg] at opposite
    omega
  rw [toLong]
  split
  · exact truncated
  · decide

/-- A range of positive values of the conversion, as one of its argument. -/
theorem toLong_mem_iff {q : ℚ} {a b : Int} (positive : 0 < a) (few : b < 9223372036854775807) :
    a ≤ toLong q ∧ toLong q ≤ b ↔ (a : ℚ) ≤ q ∧ q < b + 1 := by
  by_cases nonneg : 0 ≤ q
  · have lower : a ≤ ⌊q⌋ ↔ (a : ℚ) ≤ q := Int.le_floor
    have upper : ⌊q⌋ < b + 1 ↔ q < ((b + 1 : Int) : ℚ) := Int.floor_lt
    rw [Int.cast_add, Int.cast_one] at upper
    rw [← lower, ← upper, toLong, trunc_of_nonneg nonneg]
    split <;> omega
  · have low : toLong q ≤ 0 := toLong_nonpos (le_of_not_ge nonneg)
    have positive' : (0 : ℚ) < a := Int.cast_pos.mpr positive
    exact ⟨fun h => by omega, fun h => absurd (positive'.le.trans h.1) nonneg⟩

/-- The conversion to `uint32_t` of a number that is not negative. -/
theorem ofInt_ofNat (n : Nat) : UInt32.ofInt n = UInt32.ofNat n := by
  have h : ((n : Int) % 2 ^ 32).toNat = n % 2 ^ 32 := by omega
  rw [UInt32.ofInt, h]
  exact UInt32.ofNat_mod_size

/-- The conversion to `uint16_t` of a number that is not negative. -/
theorem uint16_ofInt_ofNat (n : Nat) : UInt16.ofInt n = UInt16.ofNat n := by
  have h : ((n : Int) % 2 ^ 16).toNat = n % 2 ^ 16 := by omega
  rw [UInt16.ofInt, h]
  exact UInt16.ofNat_mod_size

/-- The conversion to `uint32_t` keeps the low 32 bits. -/
theorem toNat_ofInt32 (x : Int) : ((UInt32.ofInt x).toNat : Int) = x % 4294967296 := by
  rw [UInt32.ofInt, UInt32.toNat_ofNat']
  omega

/-- The conversion to `uint16_t` keeps the low 16 bits. -/
theorem toNat_ofInt16 (x : Int) : ((UInt16.ofInt x).toNat : Int) = x % 65536 := by
  rw [UInt16.ofInt, UInt16.toNat_ofNat']
  omega

end NetLabs.Lib
