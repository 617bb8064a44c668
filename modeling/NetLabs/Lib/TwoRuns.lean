/-
NetLabs.Lib.TwoRuns — two runs of one system, compared by what they show.

A system given by a function `next` shows a list of observations at each
input. Two of its runs on the same inputs are compared step by step:
`Compared cond xs ys after` says that under the condition both show the same
and `after` holds of the states they are in, and that without it they `Differ`
at some observation, whatever follows. Such comparisons compose
(`Compared.append`), so a relation that every step keeps under a condition
gives the comparison of whole runs (`compared_shown`): they show the same
exactly if every step meets the condition (`Compared.eq_iff`).
-/

namespace NetLabs.Lib

universe u v w

variable {σ : Type u} {ι : Type v} {ω : Type w}

/-! ## Lists of observations -/

/-- After a common beginning the lists go on with different observations. -/
def Differ (xs ys : List ω) : Prop :=
  ∃ before x y after after', x ≠ y ∧ xs = before ++ x :: after ∧ ys = before ++ y :: after'

section Differ

variable {xs ys : List ω}

theorem Differ.ne (h : Differ xs ys) : xs ≠ ys := by
  obtain ⟨before, x, y, after, after', differ, rfl, rfl⟩ := h
  intro same
  exact differ (List.cons.inj (List.append_cancel_left same)).1

theorem Differ.append (h : Differ xs ys) (xs' ys' : List ω) : Differ (xs ++ xs') (ys ++ ys') := by
  obtain ⟨before, x, y, after, after', differ, rfl, rfl⟩ := h
  exact ⟨before, x, y, after ++ xs', after' ++ ys', differ, by simp, by simp⟩

theorem Differ.prepend (h : Differ xs ys) (common : List ω) :
    Differ (common ++ xs) (common ++ ys) := by
  obtain ⟨before, x, y, after, after', differ, rfl, rfl⟩ := h
  exact ⟨common ++ before, x, y, after, after', differ, by simp, by simp⟩

theorem differ_singleton {x y : ω} (h : x ≠ y) : Differ [x] [y] :=
  ⟨[], x, y, [], [], h, rfl, rfl⟩

end Differ

/-! ## Comparing two runs -/

/-- Under the condition both runs show the same, and `after` holds; without it
they differ. -/
structure Compared (cond : Prop) (xs ys : List ω) (after : Prop) : Prop where
  same : cond → xs = ys ∧ after
  differ : ¬ cond → Differ xs ys

namespace Compared

variable {cond cond' after after' : Prop} {xs ys xs' ys' : List ω}

/-- Nothing is shown. -/
theorem silent (h : after) : Compared True ([] : List ω) [] after :=
  ⟨fun _ => ⟨rfl, h⟩, fun absurd => (absurd trivial).elim⟩

theorem congr (h : Compared cond xs ys after) (same : cond' ↔ cond) :
    Compared cond' xs ys after :=
  ⟨fun holds => h.same (same.mp holds), fun fails => h.differ fun holds => fails (same.mpr holds)⟩

theorem imp (h : Compared cond xs ys after) (next : after → after') :
    Compared cond xs ys after' := by
  refine ⟨fun holds => ?_, h.differ⟩
  obtain ⟨same, reached⟩ := h.same holds
  exact ⟨same, next reached⟩

/-- First one part, then another from what the first one leads to. -/
theorem append (h : Compared cond xs ys after)
    (h' : after → Compared cond' xs' ys' after') :
    Compared (cond ∧ cond') (xs ++ xs') (ys ++ ys') after' := by
  constructor
  · rintro ⟨first, second⟩
    obtain ⟨rfl, reached⟩ := h.same first
    obtain ⟨rfl, done⟩ := (h' reached).same second
    exact ⟨rfl, done⟩
  · intro fails
    by_cases first : cond
    · obtain ⟨rfl, reached⟩ := h.same first
      exact ((h' reached).differ fun second => fails ⟨first, second⟩).prepend xs
    · exact (h.differ first).append xs' ys'

theorem eq_iff (h : Compared cond xs ys after) : xs = ys ↔ cond := by
  constructor
  · intro same
    by_cases holds : cond
    · exact holds
    · exact absurd same (h.differ holds).ne
  · exact fun holds => (h.same holds).1

end Compared

/-! ## Runs -/

/-- What a system shows along its inputs. -/
def shown (next : σ → ι → σ) (view : σ → ι → List ω) : σ → List ι → List ω
  | _, [] => []
  | s, i :: is => view s i ++ shown next view (next s i) is

/-- Every input meets the condition in the state it finds. -/
def Along (next : σ → ι → σ) (cond : σ → ι → Prop) : σ → List ι → Prop
  | _, [] => True
  | s, i :: is => cond s i ∧ Along next cond (next s i) is

section Runs

variable {next : σ → ι → σ} {view : σ → ι → List ω} {cond : σ → ι → Prop}
  {R : σ → σ → Prop}

/-- What holds for one step holds for all of them. -/
theorem compared_shown
    (step : ∀ {s s' i}, R s s' →
      Compared (cond s i) (view s i) (view s' i) (R (next s i) (next s' i)))
    {s s' : σ} (h : R s s') (is : List ι) :
    Compared (Along next cond s is) (shown next view s is) (shown next view s' is)
      (R (is.foldl next s) (is.foldl next s')) := by
  induction is generalizing s s' with
  | nil => exact .silent h
  | cons i is ih => exact (step h).append ih

/-- A condition that always holds holds along every run. -/
theorem Along.of_forall (h : ∀ s i, cond s i) (s : σ) (is : List ι) : Along next cond s is := by
  induction is generalizing s with
  | nil => trivial
  | cons i is ih => exact ⟨h s i, ih (next s i)⟩

end Runs

end NetLabs.Lib
