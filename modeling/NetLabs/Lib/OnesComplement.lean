/-
NetLabs.Lib.OnesComplement — addition with an end-around carry.

The words are the numbers from 0 to `m`. A carry out of a word is added at its
low end (`onesAdd`), so that sums count modulo `m`, and 0 and `m` are two
spellings of zero. A sum is 0 only if every word of it is; every other sum of
value zero is spelled `m`. `endAround m n` is the spelling the sum of words of
total `n` has (`onesSum_eq`).

A check word is what makes a sum come out as `m`. Among the words other than 0
there is one (`endAround_add_eq_iff`); 0 does as well where the rest of the sum
is `m` already.
-/
import Mathlib.Algebra.GroupWithZero.Nat
import Mathlib.Data.List.Basic
import Mathlib.Data.Nat.ModEq

namespace NetLabs.Lib

/-! ## Sums -/

/-- The sum of two words, the carry added at the low end. -/
def onesAdd (m a b : Nat) : Nat := if a + b ≤ m then a + b else a + b - m

/-- The sum of a list of words. -/
def onesSum (m : Nat) (words : List Nat) : Nat := words.foldl (onesAdd m) 0

/-- The word a total of `n` comes out as. -/
def endAround (m n : Nat) : Nat := if n = 0 then 0 else (n - 1) % m + 1

section

variable {m n k : Nat}

@[simp] theorem endAround_zero : endAround m 0 = 0 := rfl

theorem endAround_pos (pos : 0 < n) : 0 < endAround m n := by
  rw [endAround, if_neg (by omega)]
  exact Nat.succ_pos _

theorem endAround_le (hm : 0 < m) : endAround m n ≤ m := by
  unfold endAround
  have low := Nat.mod_lt (n - 1) hm
  split <;> omega

theorem endAround_of_le (small : n ≤ m) : endAround m n = n := by
  unfold endAround
  split
  · omega
  · rw [Nat.mod_eq_of_lt (by omega)]
    omega

/-- A sum other than 0 does not see multiples of `m`. -/
theorem endAround_add_mul (pos : 0 < n) : endAround m (n + m * k) = endAround m n := by
  rw [endAround, endAround, if_neg (by omega), if_neg (by omega),
    show n + m * k - 1 = n - 1 + m * k by omega, Nat.add_mul_mod_self_left]

/-- Every total is the word it comes out as and a multiple of `m`. -/
theorem exists_eq_endAround_add : ∃ k, n = endAround m n + m * k := by
  by_cases zero : n = 0
  · exact ⟨0, by rw [zero, endAround_zero, Nat.mul_zero]⟩
  · refine ⟨(n - 1) / m, ?_⟩
    have parts := Nat.mod_add_div (n - 1) m
    rw [endAround, if_neg zero]
    omega

/-- What has been added up already may be replaced by its sum. -/
theorem endAround_endAround_add : endAround m (endAround m n + k) = endAround m (n + k) := by
  by_cases zero : n = 0
  · rw [zero, endAround_zero]
  · obtain ⟨q, eq⟩ := exists_eq_endAround_add (m := m) (n := n)
    have pos : 0 < endAround m n := endAround_pos (by omega)
    conv_rhs => rw [eq, Nat.add_right_comm]
    exact (endAround_add_mul (by omega)).symm

theorem onesAdd_eq (ha : n ≤ m) (hb : k ≤ m) : onesAdd m n k = endAround m (n + k) := by
  unfold onesAdd
  split
  · rename_i small
    exact (endAround_of_le small).symm
  · rename_i carry
    have total : n + k = n + k - m + m * 1 := by omega
    rw [total, endAround_add_mul (by omega), endAround_of_le (by omega)]
    omega

/-- The sum of words is what their total comes out as. -/
theorem onesSum_eq (hm : 0 < m) {words : List Nat} (small : ∀ w ∈ words, w ≤ m) :
    onesSum m words = endAround m words.sum := by
  have run : ∀ (words : List Nat) (n : Nat), (∀ w ∈ words, w ≤ m) →
      words.foldl (onesAdd m) (endAround m n) = endAround m (n + words.sum) := by
    intro words
    induction words with
    | nil =>
      intro n _
      rw [List.foldl_nil, List.sum_nil, Nat.add_zero]
    | cons w words ih =>
      intro n small
      obtain ⟨first, others⟩ := List.forall_mem_cons.mp small
      rw [List.foldl_cons, onesAdd_eq (endAround_le hm) first, endAround_endAround_add,
        ih (n + w) others, List.sum_cons, Nat.add_assoc]
  have whole := run words 0 small
  rwa [endAround_zero, Nat.zero_add] at whole

/-- A carry turn, which adds the part of a number above a word to the part in
it, does not change what the number comes out as. -/
theorem endAround_div_add_mod : endAround m (n / (m + 1) + n % (m + 1)) = endAround m n := by
  have parts : n = n / (m + 1) + n % (m + 1) + m * (n / (m + 1)) := by
    have split := Nat.mod_add_div n (m + 1)
    rw [Nat.add_mul, Nat.one_mul] at split
    omega
  by_cases zero : n / (m + 1) + n % (m + 1) = 0
  · have quotient : n / (m + 1) = 0 := (Nat.add_eq_zero_iff.mp zero).1
    rw [zero, quotient, Nat.mul_zero] at parts
    rw [zero, parts]
  · conv_rhs => rw [parts]
    exact (endAround_add_mul (Nat.pos_of_ne_zero zero)).symm

/-! ## Check words -/

/-- The check word for a total: the complement of its sum, with zero spelled
`m`. -/
def checkWord (m n : Nat) : Nat :=
  if m - endAround m n = 0 then m else m - endAround m n

theorem checkWord_le : checkWord m n ≤ m := by
  unfold checkWord
  split <;> omega

theorem checkWord_pos (hm : 0 < m) : 0 < checkWord m n := by
  unfold checkWord
  split <;> omega

/-- The check word is the only word other than 0 that makes the sum come out
as `m`. -/
theorem endAround_add_eq_iff (hm : 0 < m) (pos : 0 < k) (small : k ≤ m) :
    endAround m (n + k) = m ↔ k = checkWord m n := by
  have low := endAround_le (n := n) hm
  rw [← endAround_endAround_add, checkWord]
  by_cases fits : endAround m n + k ≤ m
  · rw [endAround_of_le fits]
    split <;> omega
  · rw [show endAround m n + k = endAround m n + k - m + m * 1 by omega,
      endAround_add_mul (by omega), endAround_of_le (by omega)]
    split <;> omega

/-- Totals with one check word are equal modulo `m`. -/
theorem mod_eq_of_checkWord_eq (hm : 0 < m) (same : checkWord m n = checkWord m k) :
    n % m = k % m := by
  have word : ∀ n, (n + checkWord m n) % m = 0 := by
    intro n
    have full := (endAround_add_eq_iff (n := n) hm (checkWord_pos hm) checkWord_le).mpr rfl
    obtain ⟨q, eq⟩ := exists_eq_endAround_add (m := m) (n := n + checkWord m n)
    rw [full] at eq
    rw [eq, Nat.add_mul_mod_self_left, Nat.mod_self]
  have left := word n
  have right := word k
  rw [← same] at right
  have cancel : (n + checkWord m n) ≡ (k + checkWord m n) [MOD m] := left.trans right.symm
  exact Nat.ModEq.add_right_cancel' _ cancel

/-- A change of a total by less than `m` shows in the check word. -/
theorem checkWord_ne (less : n < k) (near : k < n + m) : checkWord m n ≠ checkWord m k := by
  intro same
  have mods : n ≡ k [MOD m] := mod_eq_of_checkWord_eq (by omega) same
  have divides := (Nat.modEq_iff_dvd' (Nat.le_of_lt less)).mp mods
  have := Nat.le_of_dvd (by omega) divides
  omega

end

end NetLabs.Lib
