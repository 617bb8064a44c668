/-
NetLabs.Lib.Serial — positions in an unbounded sequence, known modulo `m`.

A protocol that numbers a sequence without end in a field of fixed width sends
the position modulo `m`. The positions from a multiple of `m` to the next are
an epoch. Two positions that are less than `m` apart lie in one epoch or in
neighbouring ones: in one epoch the residues compare as the positions do, and
in neighbouring ones the other way round (`emod_lt_emod_iff`).

Where a field is known to be `d` ahead of another, a subtraction gives `d`
again, and a comparison is right as long as the epoch is the same
(`toNat_sub_of_ahead`, `le_iff_of_ahead`).
-/
import NetLabs.Lib.CNumber
import Mathlib.Algebra.Group.Int.Defs

namespace NetLabs.Lib

/-! ## Residues -/

/-- The epoch of a position. -/
def epoch (m x : Int) : Int := x / m

theorem emod_lt_emod_of_epoch_eq {m x y : Int} (same : epoch m x = epoch m y) :
    x % m < y % m ↔ x < y := by
  have hx := Int.mul_ediv_add_emod x m
  have hy := Int.mul_ediv_add_emod y m
  unfold epoch at same
  rw [same] at hx
  omega

/-- Of two positions less than `m` apart, the one in the earlier epoch has the
larger residue. -/
theorem emod_lt_emod_of_epoch_lt {m x y : Int} (pos : 0 < m) (near : y < x + m)
    (earlier : epoch m x < epoch m y) : y % m < x % m ∧ x < y := by
  have hx := Int.mul_ediv_add_emod x m
  have hy := Int.mul_ediv_add_emod y m
  have next : m * (x / m) + m ≤ m * (y / m) := by
    have step : x / m + 1 ≤ y / m := earlier
    calc m * (x / m) + m = m * (x / m + 1) := by rw [Int.mul_add, Int.mul_one]
      _ ≤ m * (y / m) := Int.mul_le_mul_of_nonneg_left step (Int.le_of_lt pos)
  have below := Int.emod_lt_of_pos x pos
  have nonneg := Int.emod_nonneg y (Int.ne_of_gt pos)
  omega

/-- Residues of positions less than `m` apart compare as the positions do
exactly if both lie in one epoch. -/
theorem emod_lt_emod_iff {m x y : Int} (pos : 0 < m) (above : x < y + m) (below : y < x + m) :
    (x % m < y % m ↔ x < y) ↔ epoch m x = epoch m y := by
  constructor
  · intro agree
    rcases Int.lt_trichotomy (epoch m x) (epoch m y) with earlier | same | later
    · obtain ⟨residue, position⟩ := emod_lt_emod_of_epoch_lt pos below earlier
      exact absurd (agree.mpr position) (Int.lt_asymm residue)
    · exact same
    · obtain ⟨residue, position⟩ := emod_lt_emod_of_epoch_lt pos above later
      exact absurd (agree.mp residue) (Int.lt_asymm position)
  · exact emod_lt_emod_of_epoch_eq

/-! ## Fields of 32 bits -/

theorem ofInt_lt_ofInt {x y : Int} :
    UInt32.ofInt x < UInt32.ofInt y ↔ x % 2 ^ 32 < y % 2 ^ 32 := by
  have toNat : ∀ z : Int, (UInt32.ofInt z).toNat = (z % 2 ^ 32).toNat := by
    intro z
    rw [UInt32.ofInt, UInt32.toNat_ofNat']
    omega
  rw [UInt32.lt_iff_toNat_lt, toNat, toNat]
  omega

/-- The comparison of two fields is right exactly if the positions, less than
2^32 apart, lie in one epoch. -/
theorem ofInt_lt_ofInt_iff {x y : Int} (above : x < y + 2 ^ 32) (below : y < x + 2 ^ 32) :
    (UInt32.ofInt x < UInt32.ofInt y ↔ x < y) ↔ epoch (2 ^ 32) x = epoch (2 ^ 32) y := by
  rw [ofInt_lt_ofInt]
  exact emod_lt_emod_iff (by decide) above below

/-! ## A field ahead of another -/

section Ahead

variable {x y : UInt32} {d : Nat}

/-- A subtraction counts from one field to another that is `d` ahead. -/
theorem toNat_sub_of_ahead (small : d < 2 ^ 32) (ahead : y.toNat = (x.toNat + d) % 2 ^ 32) :
    (y - x).toNat = d := by
  have hx := x.toNat_lt
  rw [UInt32.toNat_sub, ahead]
  omega

/-- A comparison sees which of them is ahead if the count does not pass 0. -/
theorem le_iff_of_ahead (small : d < 2 ^ 32) (ahead : y.toNat = (x.toNat + d) % 2 ^ 32) :
    x ≤ y ↔ x.toNat + d < 2 ^ 32 := by
  have hx := x.toNat_lt
  rw [UInt32.le_iff_toNat_le, ahead]
  omega

end Ahead

end NetLabs.Lib
