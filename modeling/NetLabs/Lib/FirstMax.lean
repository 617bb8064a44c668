/-
NetLabs.Lib.FirstMax — the first greatest element of a list.

`List.argmax` is what a loop that keeps the best element so far, and replaces
it only by a better one, ends with. `split_of_argmax` says where in the list
that element stands, `split_of_argmax_filter` the same for a loop that looks
only at some of the elements.
-/
import Mathlib.Data.List.MinMax

namespace NetLabs.Lib

variable {α β : Type*} [DecidableEq α] [LinearOrder β] {f : α → β} {l : List α} {m : α}

/-- What comes before it is less, what comes behind it is no greater. -/
theorem split_of_argmax (h : l.argmax f = some m) :
    ∃ before after, l = before ++ m :: after ∧
      (∀ a ∈ before, f a < f m) ∧ ∀ a ∈ after, f a ≤ f m := by
  have mem : m ∈ l := List.argmax_mem h
  obtain ⟨before, after, rfl, first⟩ := List.eq_append_cons_of_mem mem
  refine ⟨before, after, rfl, fun a ha => ?_, fun a ha => ?_⟩
  · by_contra less
    have inside : a ∈ before ++ m :: after := List.mem_append_left _ ha
    have index := List.index_of_argmax h inside (le_of_not_gt less)
    rw [List.idxOf_append_of_notMem first, List.idxOf_append_of_mem ha] at index
    have := List.idxOf_lt_length_iff.mpr ha
    omega
  · exact List.le_of_mem_argmax (List.mem_append_right _ (List.mem_cons_of_mem m ha)) h

/-- The elements that are looked at, in the list they stand in. -/
theorem split_of_argmax_filter {p : α → Bool} (h : (l.filter p).argmax f = some m) :
    p m ∧ ∃ before after, l = before ++ m :: after ∧
      (∀ a ∈ before, p a → f a < f m) ∧ ∀ a ∈ after, p a → f a ≤ f m := by
  refine ⟨(List.mem_filter.mp (List.argmax_mem h)).2, ?_⟩
  obtain ⟨before, after, split, less, notGreater⟩ := split_of_argmax h
  obtain ⟨front, back, rfl, hfront, hback⟩ := List.filter_eq_append_iff.mp split
  obtain ⟨skipped, rest, rfl, hskipped, -, hrest⟩ := List.filter_eq_cons_iff.mp hback
  refine ⟨front ++ skipped, rest, by rw [List.append_assoc], fun a ha looked => ?_,
    fun a ha looked => ?_⟩
  · rcases List.mem_append.mp ha with ha | ha
    · exact less a (hfront ▸ List.mem_filter.mpr ⟨ha, looked⟩)
    · exact absurd looked (hskipped a ha)
  · exact notGreater a (hrest ▸ List.mem_filter.mpr ⟨ha, looked⟩)

end NetLabs.Lib
