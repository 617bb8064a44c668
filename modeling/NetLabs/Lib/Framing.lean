/-
NetLabs.Lib.Framing — a stream cut into frames by the lengths they announce.

The first elements of a frame tell how long it is; how they do is a
parameter. A receiver has only the stream, so where one frame announces
another length than its own, it cuts there, and everything behind stands in
the wrong place. `cut_flatten_iff`: the receiver gets the frames that were
sent exactly if every one of them announces its length.
-/
import Mathlib.Data.List.Basic

namespace NetLabs.Lib

variable {α : Type*}

/-- The whole frames at the start of a stream. `announced` is what the first
frame tells of its length, if there is enough of it. -/
def cut (announced : List α → Option Nat) (stream : List α) : List (List α) :=
  match announced stream with
  | none => []
  | some n =>
    if 0 < n ∧ n ≤ stream.length then
      stream.take n :: cut announced (stream.drop n)
    else []
termination_by stream.length
decreasing_by
  rw [List.length_drop]
  omega

/-- The frames arrive as they were sent exactly if each announces its length. -/
theorem cut_flatten_iff {announced : List α → Option Nat} (waits : announced [] = none)
    {frames : List (List α)} {n : List α → Nat}
    (told : ∀ f ∈ frames, ∀ rest, announced (f ++ rest) = some (n f))
    (nonempty : ∀ f ∈ frames, 0 < f.length) :
    cut announced frames.flatten = frames ↔ ∀ f ∈ frames, n f = f.length := by
  induction frames with
  | nil =>
    rw [List.flatten_nil, cut, waits]
    simp
  | cons f frames ih =>
    rw [List.forall_mem_cons] at told nonempty
    have ih := ih told.2 nonempty.2
    rw [List.flatten_cons, List.forall_mem_cons, ← ih, cut, told.1]
    by_cases exact : n f = f.length
    · have fits : 0 < n f ∧ n f ≤ (f ++ frames.flatten).length := by
        rw [exact, List.length_append]
        exact ⟨nonempty.1, Nat.le_add_right _ _⟩
      simp only [if_pos fits]
      rw [List.take_left' exact.symm, List.drop_left' exact.symm]
      simp [exact]
    · refine iff_of_false ?_ fun h => exact h.1
      intro h
      simp only [] at h
      split at h
      · rename_i fits
        have first := congrArg List.length (List.cons.inj h).1
        rw [List.length_take] at first
        omega
      · cases h

end NetLabs.Lib
