/-
NetLabs.Lib.BlockHash — hash functions that process a message block by block.

`iterate f n h m` is the chaining value after all whole blocks of `n` elements
of `m`; what is left over, fewer than `n` elements, does not count. A hash
function pads the message so that nothing is left over.

An implementation gets the message in pieces and keeps the elements of the
block that is not yet full. `Absorbed` is what it then knows about the message
so far: the chaining value and the rest. It is kept by one more element,
whether this fills the block (`Absorbed.full`) or not (`Absorbed.short`), and
at the end it gives the hash of the message with any padding
(`Absorbed.finish`).
-/
import Mathlib.Data.List.Basic

namespace NetLabs.Lib.BlockHash

universe u v

variable {α : Type u} {β : Type v}

/-- The first `k` blocks of `n` elements. -/
def blocks (n : Nat) : Nat → List α → List (List α)
  | 0, _ => []
  | k + 1, m => m.take n :: blocks n k (m.drop n)

/-- The chaining value after the whole blocks of a message. -/
def iterate (f : β → List α → β) (n : Nat) (h : β) (m : List α) : β :=
  (blocks n (m.length / n) m).foldl f h

variable {f : β → List α → β} {n : Nat} {h : β}

/-! ## Messages of whole blocks -/

theorem blocks_append {whole : List α} {k : Nat} (size : whole.length = k * n) (j : Nat)
    (rest : List α) : blocks n (k + j) (whole ++ rest) = blocks n k whole ++ blocks n j rest := by
  induction k generalizing whole with
  | zero =>
    obtain rfl : whole = [] := List.length_eq_zero_iff.mp (by omega)
    simp [blocks]
  | succ k ih =>
    rw [Nat.succ_mul] at size
    have first : n ≤ whole.length := by omega
    have less : (whole.drop n).length = k * n := by
      rw [List.length_drop]
      omega
    have later := ih less
    rw [Nat.add_right_comm, blocks, blocks, List.take_append_of_le_length first,
      List.drop_append_of_le_length first, later, List.cons_append]

/-- Behind whole blocks the rest of the message is processed from the value
they give. -/
theorem iterate_append (hn : 0 < n) {whole : List α} (size : n ∣ whole.length) (rest : List α) :
    iterate f n h (whole ++ rest) = iterate f n (iterate f n h whole) rest := by
  obtain ⟨k, size⟩ := size
  rw [Nat.mul_comm] at size
  have count : (whole ++ rest).length / n = k + rest.length / n := by
    rw [List.length_append, size, Nat.add_comm, Nat.add_mul_div_right _ _ hn, Nat.add_comm]
  have alone : whole.length / n = k := by rw [size, Nat.mul_div_cancel _ hn]
  rw [iterate, count, blocks_append size, List.foldl_append, ← iterate.eq_1 (m := rest)]
  congr 1
  rw [iterate, alone]

/-- Too little for a block. -/
theorem iterate_short {rest : List α} (short : rest.length < n) : iterate f n h rest = h := by
  rw [iterate, Nat.div_eq_of_lt short]
  rfl

/-- One block. -/
theorem iterate_block (hn : 0 < n) {block : List α} (size : block.length = n) :
    iterate f n h block = f h block := by
  rw [iterate, size, Nat.div_self hn, blocks, blocks, List.take_of_length_le (Nat.le_of_eq size)]
  rfl

/-! ## A message in pieces -/

/-- After the message `m` the chaining value is `c`, and `rest` is waiting for
its block to be full. -/
structure Absorbed (f : β → List α → β) (n : Nat) (h : β) (m : List α) (c : β)
    (rest : List α) : Prop where
  split : ∃ whole, n ∣ whole.length ∧ m = whole ++ rest ∧ c = iterate f n h whole
  short : rest.length < n

namespace Absorbed

variable {m rest : List α} {c : β}

/-- The empty message. -/
theorem nil (hn : 0 < n) : Absorbed f n h [] h [] where
  split := ⟨[], ⟨0, rfl⟩, rfl, (iterate_short hn).symm⟩
  short := hn

/-- An element that does not fill the block. -/
theorem step (s : Absorbed f n h m c rest) {x : α} (short : rest.length + 1 < n) :
    Absorbed f n h (m ++ [x]) c (rest ++ [x]) where
  split := by
    obtain ⟨whole, size, rfl, value⟩ := s.split
    exact ⟨whole, size, List.append_assoc _ _ _, value⟩
  short := by simpa using short

/-- An element that fills the block, which is processed. -/
theorem full (s : Absorbed f n h m c rest) {x : α} (full : rest.length + 1 = n) :
    Absorbed f n h (m ++ [x]) (f c (rest ++ [x])) [] where
  split := by
    obtain ⟨whole, size, rfl, value⟩ := s.split
    have block : (rest ++ [x]).length = n := by simpa using full
    refine ⟨whole ++ (rest ++ [x]), ?_, by simp, ?_⟩
    · rw [List.length_append, block]
      exact Nat.dvd_add size (Nat.dvd_refl n)
    · rw [iterate_append (by omega) size, iterate_block (by omega) block, value]
  short := by
    rw [List.length_nil]
    omega

/-- The length of the rest. -/
theorem length_rest (s : Absorbed f n h m c rest) : rest.length = m.length % n := by
  obtain ⟨whole, ⟨k, size⟩, rfl, -⟩ := s.split
  rw [List.length_append, size, Nat.mul_add_mod, Nat.mod_eq_of_lt s.short]

/-- The hash of the message with what is put behind it. -/
theorem finish (s : Absorbed f n h m c rest) (padding : List α) :
    iterate f n h (m ++ padding) = iterate f n c (rest ++ padding) := by
  obtain ⟨whole, size, rfl, rfl⟩ := s.split
  have hn : 0 < n := Nat.zero_lt_of_lt s.short
  rw [List.append_assoc, iterate_append hn size]

end Absorbed

end NetLabs.Lib.BlockHash
