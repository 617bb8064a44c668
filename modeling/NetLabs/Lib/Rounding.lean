/-
NetLabs.Lib.Rounding — rounding to the nearest binary number.

A binary format of `p` digits represents the numbers `m * 2 ^ e` with at most
`p` digits in `m`. The multiples of `quantum p q` are the ones around `q`, and
`nearest p q` is the nearest of them, the even one of two that are equally near.
It rounds as the formats of IEEE 754 do, but for the ends of their range of
exponents, which it does not have.

An integer of more than `p` digits may become smaller (`RoundsDown`), and what
is added to it afterwards may be lost (`lt_nearest_add_iff`).
-/
import Mathlib.Data.Int.Log
import NetLabs.Lib.CNumber

namespace NetLabs.Lib

/-! ## To an integer -/

/-- The nearest integer, the even one of two that are equally near. -/
def nearestInt (q : ℚ) : Int :=
  if Int.fract q < 1 / 2 ∨ Int.fract q = 1 / 2 ∧ ⌊q⌋ % 2 = 0 then ⌊q⌋ else ⌊q⌋ + 1

@[simp] theorem nearestInt_intCast (n : Int) : nearestInt n = n := by
  simp [nearestInt]

/-- The nearest integer is the floor or the integer after it. -/
theorem nearestInt_mem (q : ℚ) : ⌊q⌋ ≤ nearestInt q ∧ nearestInt q ≤ ⌊q⌋ + 1 := by
  rw [nearestInt]
  split_ifs <;> omega

theorem nearestInt_mono {q r : ℚ} (le : q ≤ r) : nearestInt q ≤ nearestInt r := by
  rcases (Int.floor_mono le).eq_or_lt with same | less
  · have parts : Int.fract q ≤ Int.fract r := by
      rw [← Int.self_sub_floor, ← Int.self_sub_floor, same]
      linarith
    rw [nearestInt, nearestInt, same]
    split_ifs with down up
    · exact le_rfl
    · exact Int.le_add_one le_rfl
    · rename_i high
      refine absurd ?_ down
      rcases high with below | ⟨tie, even⟩
      · exact .inl (parts.trans_lt below)
      · exact (parts.trans_eq tie).lt_or_eq.imp_right fun tie => ⟨tie, even⟩
    · exact le_rfl
  · exact (nearestInt_mem q).2.trans (Int.add_one_le_iff.mpr less |>.trans (nearestInt_mem r).1)

/-- The nearest integer of the opposite number is the opposite integer. -/
theorem nearestInt_neg (q : ℚ) : nearestInt (-q) = -nearestInt q := by
  by_cases whole : Int.fract q = 0
  · obtain ⟨n, rfl⟩ := Int.fract_eq_zero_iff.mp whole
    rw [← Int.cast_neg, nearestInt_intCast, nearestInt_intCast]
  · have parts : Int.fract (-q) = 1 - Int.fract q := Int.fract_neg whole
    have floors : ⌊-q⌋ = -⌊q⌋ - 1 := by
      have sum := Int.floor_add_fract (-q)
      have sum' := Int.floor_add_fract q
      have cast : ((⌊-q⌋ : Int) : ℚ) = ((-⌊q⌋ - 1 : Int) : ℚ) := by
        push_cast
        linarith
      exact_mod_cast cast
    have opposite : (1 - Int.fract q < 1 / 2 ∨ 1 - Int.fract q = 1 / 2 ∧ (-⌊q⌋ - 1) % 2 = 0) ↔
        ¬ (Int.fract q < 1 / 2 ∨ Int.fract q = 1 / 2 ∧ ⌊q⌋ % 2 = 0) := by
      rcases lt_trichotomy (Int.fract q) (1 / 2) with low | tie | high
      · exact iff_of_false (by rintro (h | ⟨h, -⟩) <;> linarith) (not_not_intro (.inl low))
      · rw [tie]
        norm_num
        omega
      · exact iff_of_true (.inl (by linarith)) (by rintro (h | ⟨h, -⟩) <;> linarith)
    rw [nearestInt, nearestInt, parts, floors]
    by_cases down : Int.fract q < 1 / 2 ∨ Int.fract q = 1 / 2 ∧ ⌊q⌋ % 2 = 0
    · rw [if_pos down, if_neg fun h => opposite.mp h down]
      omega
    · rw [if_neg down, if_pos (opposite.mpr down)]
      omega

/-- The nearest integer is above `n` from the midpoint behind `n` on, and on the
midpoint itself if `n` is odd. -/
theorem lt_nearestInt_iff {n : Int} {q : ℚ} :
    n < nearestInt q ↔ (n : ℚ) + 1 / 2 < q ∨ q = n + 1 / 2 ∧ n % 2 = 1 := by
  obtain ⟨low, high⟩ := nearestInt_mem q
  rcases lt_trichotomy ⌊q⌋ n with below | same | above
  · have less : q < n := Int.floor_lt.mp below
    exact iff_of_false (by omega) (by rintro (h | ⟨h, -⟩) <;> linarith)
  · have fract : Int.fract q = q - n := by rw [← Int.self_sub_floor, same]
    rw [nearestInt, same, fract]
    split_ifs with down
    · refine iff_of_false (lt_irrefl n) ?_
      rintro (past | ⟨tie, odd⟩)
      · rcases down with short | ⟨tie, -⟩ <;> linarith
      · rcases down with short | ⟨-, even⟩
        · linarith
        · omega
    · refine iff_of_true (Int.lt_succ n) ?_
      rcases lt_trichotomy (q - n) (1 / 2) with short | tie | long
      · exact absurd (.inl short) down
      · exact .inr ⟨by linarith, Int.emod_two_ne_zero.mp fun even => down (.inr ⟨tie, even⟩)⟩
      · exact .inl (by linarith)
  · have more : (n : ℚ) + 1 ≤ q := by exact_mod_cast Int.le_floor.mp (Int.add_one_le_iff.mpr above)
    exact iff_of_true (above.trans_le low) (.inl (by linarith))

theorem half_lt_div_iff {g r : ℚ} (positive : 0 < g) : 1 / 2 < r / g ↔ g < 2 * r := by
  rw [div_lt_div_iff₀ two_pos positive, one_mul, mul_comm]

theorem div_eq_half_iff {g r : ℚ} (positive : 0 < g) : r / g = 1 / 2 ↔ 2 * r = g := by
  rw [div_eq_div_iff positive.ne' two_ne_zero, one_mul, mul_comm]

theorem ediv_le_nearestInt {n g : Int} (positive : 0 < g) : n / g ≤ nearestInt ((n : ℚ) / g) := by
  have some : (0 : ℚ) < g := by exact_mod_cast positive
  rw [← nearestInt_intCast (n / g)]
  refine nearestInt_mono ((le_div_iff₀ some).mpr ?_)
  exact_mod_cast Int.ediv_mul_le n positive.ne'

/-- The nearest integer of a quotient is above the floor from half of the divisor
on in the remainder, and on the half itself if the floor is odd. -/
theorem lt_nearestInt_div_iff {n g : Int} (positive : 0 < g) :
    n / g < nearestInt ((n : ℚ) / g) ↔ g < 2 * (n % g) ∨ 2 * (n % g) = g ∧ n / g % 2 = 1 := by
  have some : (0 : ℚ) < g := by exact_mod_cast positive
  have parts : (n : ℚ) / g = (n / g : Int) + (n % g : Int) / (g : ℚ) := by
    rw [div_eq_iff some.ne', add_mul, div_mul_cancel₀ _ some.ne']
    exact_mod_cast (Int.ediv_mul_add_emod n g).symm
  rw [lt_nearestInt_iff, parts, add_lt_add_iff_left, add_right_inj, half_lt_div_iff some,
    div_eq_half_iff some]
  exact_mod_cast Iff.rfl

/-! ## To a binary number -/

/-- The distance of the numbers of `p` digits around `q`. -/
def quantum (p : Nat) (q : ℚ) : ℚ := 2 ^ (Int.log 2 |q| - p + 1)

/-- The nearest number of `p` digits. -/
def nearest (p : Nat) (q : ℚ) : ℚ := nearestInt (q / quantum p q) * quantum p q

theorem quantum_pos (p : Nat) (q : ℚ) : 0 < quantum p q := zpow_pos (by norm_num) _

/-- Between two powers of two the distance is the same. -/
theorem quantum_of_mem {p : Nat} {q : ℚ} {e : Int} (low : 2 ^ (p + e - 1) ≤ q)
    (high : q < 2 ^ (p + e)) : quantum p q = 2 ^ e := by
  have positive : 0 < q := (zpow_pos two_pos _).trans_le low
  have above := (Int.zpow_le_iff_le_log Nat.one_lt_two positive).mp low
  have under := (Int.lt_zpow_iff_log_lt Nat.one_lt_two positive).mp high
  rw [quantum, abs_of_pos positive]
  congr 1
  omega

theorem nearest_neg (p : Nat) (q : ℚ) : nearest p (-q) = -nearest p q := by
  rw [nearest, nearest, quantum, abs_neg, ← quantum, neg_div, nearestInt_neg, Int.cast_neg,
    neg_mul]

@[simp] theorem nearest_zero (p : Nat) : nearest p 0 = 0 := by
  rw [nearest, zero_div, ← Int.cast_zero, nearestInt_intCast, Int.cast_zero, zero_mul]

/-- A multiple of the distance is left alone. -/
theorem nearest_of_multiple {p : Nat} {q : ℚ} {n : Int} (h : q = n * quantum p q) :
    nearest p q = q := by
  have quotient : q / quantum p q = n := (div_eq_iff (quantum_pos p q).ne').mpr h
  rw [nearest, quotient, nearestInt_intCast, ← h]

/-- A number of at most `p` digits is left alone. -/
theorem nearest_of_digits {p : Nat} {n : Int} (few : n.natAbs < 2 ^ p) (e : Int) :
    nearest p (n * 2 ^ e) = n * 2 ^ e := by
  by_cases zero : n = 0
  · rw [zero, Int.cast_zero, zero_mul, nearest_zero]
  have power : (0 : ℚ) < 2 ^ e := zpow_pos two_pos e
  have size : |(n : ℚ) * 2 ^ e| = n.natAbs * 2 ^ e := by
    rw [abs_mul, abs_of_pos power, Nat.cast_natAbs, Int.cast_abs]
  have positive : 0 < |(n : ℚ) * 2 ^ e| := by
    have some : (0 : ℚ) < n.natAbs := by exact_mod_cast Int.natAbs_pos.mpr zero
    rw [size]
    exact mul_pos some power
  have short : Int.log 2 |(n : ℚ) * 2 ^ e| < p + e := by
    have bound : (n.natAbs : ℚ) < 2 ^ p := by exact_mod_cast few
    rw [← Int.lt_zpow_iff_log_lt Nat.one_lt_two positive, Nat.cast_ofNat,
      zpow_add₀ two_ne_zero, zpow_natCast, size]
    exact mul_lt_mul_of_pos_right bound power
  obtain ⟨d, gap⟩ : ∃ d : Nat, e = d + (Int.log 2 |(n : ℚ) * 2 ^ e| - p + 1) :=
    ⟨(e - (Int.log 2 |(n : ℚ) * 2 ^ e| - p + 1)).toNat, by omega⟩
  refine nearest_of_multiple (n := n * 2 ^ d) ?_
  calc (n : ℚ) * 2 ^ e = n * 2 ^ (d + (Int.log 2 |(n : ℚ) * 2 ^ e| - p + 1)) := by rw [← gap]
    _ = n * (2 ^ d * quantum p (n * 2 ^ e)) := by
      rw [zpow_add₀ two_ne_zero, zpow_natCast, quantum]
    _ = (n * 2 ^ d : Int) * quantum p (n * 2 ^ e) := by
      push_cast
      ring

/-- There are `p` digits before the point of the scaled number. -/
theorem abs_lt_scaled (p : Nat) (q : ℚ) : |q| < 2 ^ p * quantum p q := by
  have next := Int.lt_zpow_succ_log_self Nat.one_lt_two |q|
  have split : (2 : ℚ) ^ (Int.log 2 |q| + 1) = 2 ^ p * quantum p q := by
    rw [quantum, ← zpow_natCast, ← zpow_add₀ two_ne_zero]
    congr 1
    omega
  rwa [Nat.cast_ofNat, split] at next

/-- The rounded number has `p` digits, or is a power of two. -/
theorem natAbs_nearestInt_le (p : Nat) (q : ℚ) :
    (nearestInt (q / quantum p q)).natAbs ≤ 2 ^ p := by
  obtain ⟨low, high⟩ := abs_lt.mp (abs_lt_scaled p q)
  have positive := quantum_pos p q
  have upper : q / quantum p q ≤ ((2 ^ p : Int) : ℚ) := by
    push_cast
    exact (div_le_iff₀ positive).mpr high.le
  have lower : ((-2 ^ p : Int) : ℚ) ≤ q / quantum p q := by
    push_cast
    rw [le_div_iff₀ positive]
    linarith
  have above := nearestInt_mono upper
  have below := nearestInt_mono lower
  rw [nearestInt_intCast] at above below
  have cast : ((2 ^ p : Nat) : Int) = 2 ^ p := by push_cast; rfl
  omega

theorem nearest_idem {p : Nat} (some : 0 < p) (q : ℚ) :
    nearest p (nearest p q) = nearest p q := by
  set m := nearestInt (q / quantum p q)
  have form : nearest p q = m * 2 ^ (Int.log 2 |q| - p + 1) := rfl
  rcases (natAbs_nearestInt_le p q).lt_or_eq with few | most
  · rw [form, nearest_of_digits few]
  · -- a power of two has one digit
    obtain ⟨sign, one, power⟩ : ∃ sign : Int, sign.natAbs = 1 ∧ m = sign * 2 ^ p := by
      have cast : ((2 ^ p : Nat) : Int) = 2 ^ p := Nat.cast_pow 2 p
      rcases Int.natAbs_eq m with positive | negative
      · exact ⟨1, rfl, by omega⟩
      · exact ⟨-1, rfl, by omega⟩
    have short : sign.natAbs < 2 ^ p := one ▸ Nat.one_lt_two_pow some.ne'
    have shifted : nearest p q = sign * 2 ^ (p + (Int.log 2 |q| - p + 1)) := by
      rw [form, power, Int.cast_mul, Int.cast_pow, Int.cast_ofNat, mul_assoc, ← zpow_natCast,
        ← zpow_add₀ two_ne_zero]
    rw [shifted, nearest_of_digits short]

/-- Rounding carries no number past a power of two. -/
theorem nearest_mem {p : Nat} (some : 0 < p) {q : ℚ} (positive : 0 < q) :
    2 ^ Int.log 2 q ≤ nearest p q ∧ nearest p q ≤ 2 ^ (Int.log 2 q + 1) := by
  have step := quantum_pos p q
  have size : Int.log 2 |q| = Int.log 2 q := by rw [abs_of_pos positive]
  constructor
  · have low : (2 : ℚ) ^ Int.log 2 q = ((2 ^ (p - 1) : Int) : ℚ) * quantum p q := by
      rw [quantum, size, Int.cast_pow, Int.cast_ofNat, ← zpow_natCast, ← zpow_add₀ two_ne_zero]
      congr 1
      omega
    have scaled : ((2 ^ (p - 1) : Int) : ℚ) ≤ q / quantum p q := by
      rw [le_div_iff₀ step, ← low]
      exact_mod_cast Int.zpow_log_le_self Nat.one_lt_two positive
    have rounded := nearestInt_mono scaled
    rw [nearestInt_intCast] at rounded
    rw [low, nearest]
    exact mul_le_mul_of_nonneg_right (by exact_mod_cast rounded) step.le
  · have high : (2 : ℚ) ^ (Int.log 2 q + 1) = ((2 ^ p : Int) : ℚ) * quantum p q := by
      rw [quantum, size, Int.cast_pow, Int.cast_ofNat, ← zpow_natCast, ← zpow_add₀ two_ne_zero]
      congr 1
      omega
    have digits : nearestInt (q / quantum p q) ≤ 2 ^ p := by
      have cast : ((2 ^ p : Nat) : Int) = 2 ^ p := Nat.cast_pow 2 p
      have few := natAbs_nearestInt_le p q
      omega
    rw [high, nearest]
    exact mul_le_mul_of_nonneg_right (by exact_mod_cast digits) step.le

theorem nearest_nonneg {p : Nat} (some : 0 < p) {q : ℚ} (nonneg : 0 ≤ q) : 0 ≤ nearest p q := by
  rcases nonneg.eq_or_lt with zero | positive
  · rw [← zero, nearest_zero]
  · exact (zpow_pos two_pos _).le.trans (nearest_mem some positive).1

theorem nearest_mono_pos {p : Nat} (some : 0 < p) {q r : ℚ} (positive : 0 < q) (le : q ≤ r) :
    nearest p q ≤ nearest p r := by
  rcases (Int.log_mono_right (b := 2) positive le).eq_or_lt with same | less
  · have step : quantum p q = quantum p r := by
      rw [quantum, quantum, abs_of_pos positive, abs_of_pos (positive.trans_le le), same]
    rw [nearest, nearest, step]
    have rounded := nearestInt_mono (div_le_div_of_nonneg_right le (quantum_pos p r).le)
    exact mul_le_mul_of_nonneg_right (by exact_mod_cast rounded) (quantum_pos p r).le
  · calc nearest p q ≤ 2 ^ (Int.log 2 q + 1) := (nearest_mem some positive).2
      _ ≤ 2 ^ Int.log 2 r := zpow_le_zpow_right₀ one_le_two less
      _ ≤ nearest p r := (nearest_mem some (positive.trans_le le)).1

theorem nearest_mono {p : Nat} (some : 0 < p) : Monotone (nearest p) := by
  intro q r le
  rcases lt_or_ge 0 q with positive | nonpos
  · exact nearest_mono_pos some positive le
  · have below : nearest p q ≤ 0 := by
      have := nearest_nonneg some (neg_nonneg.mpr nonpos)
      rw [nearest_neg] at this
      linarith
    rcases lt_or_ge r 0 with negative | nonneg
    · have opposite := nearest_mono_pos some (neg_pos.mpr negative) (neg_le_neg le)
      rw [nearest_neg, nearest_neg] at opposite
      linarith
    · exact below.trans (nearest_nonneg some nonneg)

/-! ## Integers of more digits -/

/-- The distance of the integers of `p` digits around `n`. -/
def spacing (p : Nat) (n : Int) : Int := 2 ^ (Nat.log 2 n.toNat + 1 - p)

/-- Rounding to `p` digits makes the integer smaller. -/
def RoundsDown (p : Nat) (n : Int) : Prop :=
  0 < n % spacing p n ∧ (2 * (n % spacing p n) < spacing p n ∨
    2 * (n % spacing p n) = spacing p n ∧ n / spacing p n % 2 = 0)

instance (p : Nat) (n : Int) : Decidable (RoundsDown p n) := inferInstanceAs (Decidable (_ ∧ _))

section

variable {p : Nat} {n : Int}

theorem spacing_pos (p : Nat) (n : Int) : 0 < spacing p n := by
  rw [spacing]
  positivity

theorem cast_spacing (p : Nat) (n : Int) :
    (spacing p n : ℚ) = 2 ^ ((Nat.log 2 n.toNat + 1 - p : Nat) : Int) := by
  rw [spacing, Int.cast_pow, Int.cast_ofNat, zpow_natCast]

theorem spacing_of_lt (some : 0 < p) (few : n < 2 ^ p) : spacing p n = 1 := by
  have digits : Nat.log 2 n.toNat < p := by
    rcases Nat.eq_zero_or_pos n.toNat with zero | positive
    · rwa [zero, Nat.log_zero_right]
    · have cast : ((2 ^ p : Nat) : Int) = 2 ^ p := Nat.cast_pow 2 p
      exact Nat.log_lt_of_lt_pow positive.ne' (by omega)
  rw [spacing, Nat.sub_eq_zero_of_le digits, pow_zero]

theorem log_intCast (positive : 0 < n) : Int.log 2 |(n : ℚ)| = Nat.log 2 n.toNat := by
  have cast : |(n : ℚ)| = (n.toNat : ℚ) := by
    rw [abs_of_pos (by exact_mod_cast positive)]
    exact_mod_cast (Int.toNat_of_nonneg positive.le).symm
  rw [cast, Int.log_natCast]

theorem le_log_of_large (large : 2 ^ p ≤ n) : p ≤ Nat.log 2 n.toNat := by
  have cast : ((2 ^ p : Nat) : Int) = 2 ^ p := Nat.cast_pow 2 p
  exact Nat.le_log_of_pow_le Nat.one_lt_two (by omega)

theorem quantum_eq (large : 2 ^ p ≤ n) : quantum p n = spacing p n := by
  have positive : 0 < n := (by positivity : (0 : Int) < 2 ^ p).trans_le large
  have digits := le_log_of_large large
  rw [quantum, log_intCast positive, cast_spacing]
  congr 1
  omega

/-- An integer of more than `p` digits has `p` digits in front of the distance. -/
theorem ediv_spacing_mem (some : 0 < p) (large : 2 ^ p ≤ n) :
    2 ^ (p - 1) ≤ n / spacing p n ∧ n / spacing p n < 2 ^ p := by
  have positive : 0 < n := (by positivity : (0 : Int) < 2 ^ p).trans_le large
  have digits := le_log_of_large large
  have lower : (2 : Int) ^ Nat.log 2 n.toNat ≤ n := by
    have power := Nat.pow_log_le_self 2 (x := n.toNat) (by omega)
    zify at power
    omega
  have upper : n < (2 : Int) ^ (Nat.log 2 n.toNat + 1) := by
    have power := Nat.lt_pow_succ_log_self Nat.one_lt_two n.toNat
    zify at power
    omega
  have step := spacing_pos p n
  rw [Int.le_ediv_iff_mul_le step, Int.ediv_lt_iff_lt_mul step, spacing, ← pow_add, ← pow_add]
  constructor
  · convert lower using 2
    omega
  · convert upper using 2
    omega

theorem roundsDown_iff : RoundsDown p n ↔
    0 < n % spacing p n ∧ ¬ n / spacing p n < nearestInt ((n : ℚ) / spacing p n) := by
  rw [RoundsDown, lt_nearestInt_div_iff (spacing_pos p n)]
  omega

theorem large_of_roundsDown (some : 0 < p) (down : RoundsDown p n) : 2 ^ p ≤ n := by
  by_contra few
  have rest := down.1
  rw [spacing_of_lt some (not_le.mp few), Int.emod_one] at rest
  exact lt_irrefl 0 rest

/-- An integer that is rounded down becomes the multiple of the distance below
it. -/
theorem nearest_of_roundsDown (some : 0 < p) (down : RoundsDown p n) :
    nearest p n = (n / spacing p n * spacing p n : Int) := by
  have low := ediv_le_nearestInt (n := n) (spacing_pos p n)
  have here := le_antisymm (not_lt.mp (roundsDown_iff.mp down).2) low
  rw [nearest, quantum_eq (large_of_roundsDown some down), here, Int.cast_mul]

theorem nearest_lt_iff (some : 0 < p) (nonneg : 0 ≤ n) : nearest p n < n ↔ RoundsDown p n := by
  have parts := Int.ediv_mul_add_emod n (spacing p n)
  constructor
  · intro less
    rcases lt_or_ge n (2 ^ p) with few | large
    · have cast : ((2 ^ p : Nat) : Int) = 2 ^ p := Nat.cast_pow 2 p
      have whole := nearest_of_digits (n := n) (p := p) (by omega) 0
      rw [zpow_zero, mul_one] at whole
      exact absurd less whole.not_lt
    · have scaled : (nearestInt ((n : ℚ) / spacing p n) * spacing p n : Int) < n := by
        rw [nearest, quantum_eq large] at less
        exact_mod_cast less
      have step := spacing_pos p n
      refine roundsDown_iff.mpr ⟨?_, fun up => ?_⟩
      · have low := Int.mul_le_mul_of_nonneg_right (ediv_le_nearestInt (n := n) step) step.le
        omega
      · have next := Int.mul_le_mul_of_nonneg_right (Int.add_one_le_iff.mpr up) step.le
        have rest := Int.emod_lt_of_pos n step
        rw [add_mul, one_mul] at next
        omega
  · intro down
    rw [nearest_of_roundsDown some down, Int.cast_lt]
    have rest := down.1
    omega

/-- The distance is the same from a multiple of it up to the next one. -/
theorem quantum_add (some : 0 < p) (large : 2 ^ p ≤ n) {r : ℚ} (nonneg : 0 ≤ r)
    (less : r < spacing p n) :
    quantum p ((n / spacing p n * spacing p n : Int) + r) = spacing p n := by
  obtain ⟨low, high⟩ := ediv_spacing_mem some large
  have floor : ((2 ^ (p - 1) * spacing p n : Int) : ℚ) ≤ (n / spacing p n * spacing p n : Int) := by
    exact_mod_cast Int.mul_le_mul_of_nonneg_right low (spacing_pos p n).le
  have ceiling : (((n / spacing p n + 1) * spacing p n : Int) : ℚ) ≤
      (2 ^ p * spacing p n : Int) := by
    exact_mod_cast Int.mul_le_mul_of_nonneg_right high (spacing_pos p n).le
  push_cast at floor ceiling ⊢
  rw [cast_spacing] at floor ceiling less ⊢
  rw [← zpow_natCast, ← zpow_add₀ two_ne_zero] at floor ceiling
  refine quantum_of_mem ?_ (lt_of_lt_of_le (by linarith) ceiling)
  refine le_trans (zpow_le_zpow_right₀ one_le_two ?_) (floor.trans (by linarith))
  omega

/-- What is added to the rounded integer moves it on exactly if it is more than
half of the distance, or half of it behind an odd multiple. -/
theorem lt_nearest_add_iff (some : 0 < p) (down : RoundsDown p n) {d : ℚ} (nonneg : 0 ≤ d) :
    nearest p n < nearest p (nearest p n + d) ↔
      spacing p n < 2 * d ∨ 2 * d = spacing p n ∧ n / spacing p n % 2 = 1 := by
  have large := large_of_roundsDown some down
  have step : (0 : ℚ) < spacing p n := by exact_mod_cast spacing_pos p n
  have below (r : ℚ) (nonneg : 0 ≤ r) (less : r < spacing p n) :
      nearest p n < nearest p (nearest p n + r) ↔
        spacing p n < 2 * r ∨ 2 * r = spacing p n ∧ n / spacing p n % 2 = 1 := by
    have quotient : ((n / spacing p n * spacing p n : Int) + r) / spacing p n =
        (n / spacing p n : Int) + r / spacing p n := by
      rw [Int.cast_mul, add_div, mul_div_cancel_right₀ _ step.ne']
    rw [nearest_of_roundsDown some down, nearest, quantum_add some large nonneg less, quotient,
      Int.cast_mul, mul_lt_mul_iff_of_pos_right step, Int.cast_lt, lt_nearestInt_iff,
      add_lt_add_iff_left, add_right_inj, half_lt_div_iff step, div_eq_half_iff step]
  rcases lt_or_ge d (spacing p n) with less | ge
  · exact below d nonneg less
  · -- three quarters of the distance move it on already
    have part :=
      (below (3 / 4 * spacing p n) (by positivity) (by linarith)).mpr (.inl (by linarith))
    refine iff_of_true (part.trans_le (nearest_mono some ?_)) (.inl (by linarith))
    linarith

end

/-! ## `float` and `double` -/

/-- Rounding to the 24 digits of `float` and the 53 of `double`. -/
def FloatArith.binary : FloatArith := ⟨nearest 24, nearest 53⟩

theorem nearest_div {p : Nat} {n : Int} (few : n.natAbs < 2 ^ p) (k : Nat) :
    nearest p (n / 2 ^ k) = n / 2 ^ k := by
  have shifted : (n : ℚ) / 2 ^ k = n * 2 ^ (-k : Int) := by
    rw [zpow_neg, zpow_natCast, div_eq_mul_inv]
  rw [shifted, nearest_of_digits few]

theorem FloatArith.ieee_binary : FloatArith.binary.Ieee where
  single_mono := nearest_mono (by decide)
  double_mono := nearest_mono (by decide)
  single_idem := nearest_idem (by decide)
  single_exact _ k few _ := nearest_div few k
  single_large n k few _ := by
    have whole := nearest_of_digits few (k : Int)
    rwa [zpow_natCast] at whole
  double_exact _ k few _ := nearest_div few k

/-- A reading of the clock in milliseconds is 20 seconds behind as a `float`. -/
example : FloatArith.binary.single 1699999927840 = 1699999907840 := by
  decide +kernel

end NetLabs.Lib
