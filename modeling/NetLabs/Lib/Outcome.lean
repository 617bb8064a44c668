/-
NetLabs.Lib.Outcome — how a computation that may fail ends.

`Ends F P x` says that `x` fails with an error that satisfies `F` or returns
a value that satisfies `P`. It is a weakest precondition for `Except`: one
rule for each way to build a computation, an equivalence where there is one,
and for a loop over a list a rule with an invariant of its elements
(`Ends.mapM`).

Its usual instance is a program in which some errors must not happen and
others are a regular end. `ends_iff` splits the two parts.
-/
import Mathlib.Logic.Basic

namespace NetLabs.Lib

universe u v w

variable {ε : Type u} {α : Type v} {β : Type w} {F : ε → Prop} {P Q : α → Prop}

/-- The computation fails with an error in `F` or returns a value in `P`. -/
def Ends (F : ε → Prop) (P : α → Prop) : Except ε α → Prop
  | .error e => F e
  | .ok a => P a

@[simp] theorem ends_ok (a : α) : Ends F P (.ok a : Except ε α) ↔ P a := Iff.rfl

@[simp] theorem ends_pure (a : α) : Ends F P (pure a : Except ε α) ↔ P a := Iff.rfl

@[simp] theorem ends_error (e : ε) : Ends F P (.error e : Except ε α) ↔ F e := Iff.rfl

@[simp] theorem ends_bind {β : Type v} {x : Except ε α} {f : α → Except ε β} {R : β → Prop} :
    Ends F R (x >>= f) ↔ Ends F (fun a => Ends F R (f a)) x := by
  cases x <;> exact Iff.rfl

@[simp] theorem ends_map {β : Type v} {x : Except ε α} {f : α → β} {R : β → Prop} :
    Ends F R (f <$> x) ↔ Ends F (fun a => R (f a)) x := by
  cases x <;> exact Iff.rfl

@[simp] theorem ends_ite {c : Prop} [Decidable c] {x y : Except ε α} :
    Ends F P (if c then x else y) ↔ (c → Ends F P x) ∧ (¬ c → Ends F P y) := by
  split <;> simp [*]

/-- The errors and the results are told apart. -/
theorem ends_iff {x : Except ε α} :
    Ends F P x ↔ (∀ e, x = .error e → F e) ∧ ∀ a, x = .ok a → P a := by
  cases x <;> simp

/-- Where every error is allowed, what is returned decides. -/
theorem ends_returned {x : Except ε α} :
    Ends (fun _ => True) P x ↔ ∀ a, x = .ok a → P a := by
  cases x <;> simp

theorem Ends.returned {x : Except ε α} {a : α} (h : Ends F P x) (ok : x = .ok a) : P a := by
  rw [ok] at h
  exact h

/-- What two computations in a row return, the second one returns. -/
theorem ok_of_bind {β : Type v} {x : Except ε α} {f : α → Except ε β} {b : β}
    (h : x >>= f = .ok b) : ∃ a, x = .ok a ∧ f a = .ok b := by
  cases x with
  | error => cases h
  | ok a => exact ⟨a, rfl, h⟩

theorem ok_of_toOption {x : Except ε α} {a : α} (h : x.toOption = some a) : x = .ok a := by
  cases x with
  | error => cases h
  | ok b => exact congrArg _ (Option.some.inj h)

theorem exists_of_isOk {x : Except ε α} (h : x.isOk = true) : ∃ a, x = .ok a := by
  cases x with
  | error => cases h
  | ok a => exact ⟨a, rfl⟩

/-- A failure can be told without looking at what would be returned. -/
theorem error_of_map {x : Except ε α} {e : ε} (h : x.map (fun _ => ()) = .error e) :
    x = .error e := by
  cases x with
  | error => exact congrArg _ (Except.error.inj h)
  | ok => cases h

/-- Ending well and what is returned can be told one after the other. -/
theorem ends_true_and {x : Except ε α} :
    Ends F P x ↔ Ends F (fun _ => True) x ∧ ∀ a, x = .ok a → P a := by
  cases x <;> simp

theorem Ends.imp {x : Except ε α} (h : Ends F P x) (sub : ∀ a, P a → Q a) : Ends F Q x := by
  cases x with
  | error => exact h
  | ok a => exact sub a h

/-- What every turn of a loop makes true of its element holds of the list. -/
theorem Ends.mapM {β : Type v} {f : α → Except ε β} {R : β → Prop} {as : List α}
    (turn : ∀ a ∈ as, Ends F R (f a)) : Ends F (fun bs => ∀ b ∈ bs, R b) (as.mapM f) := by
  induction as with
  | nil => simp
  | cons a as ih =>
    have rest := ih fun c hc => turn c (List.mem_cons_of_mem a hc)
    rw [List.mapM_cons, ends_bind]
    refine (turn a List.mem_cons_self).imp fun b hb => ?_
    rw [ends_bind]
    exact rest.imp fun bs hbs => List.forall_mem_cons.mpr ⟨hb, hbs⟩

/-- Every element of the first list has one in the second that is related to
it. -/
def Each {β : Type v} (R : α → β → Prop) (as : List α) (bs : List β) : Prop :=
  ∀ a ∈ as, ∃ b ∈ bs, R a b

theorem Each.refl {R : α → α → Prop} (refl : ∀ a, R a a) (as : List α) : Each R as as :=
  fun a mem => ⟨a, mem, refl a⟩

theorem Each.append {β : Type v} {R : α → β → Prop} {as as' : List α} {bs bs' : List β}
    (h : Each R as bs) (h' : Each R as' bs') : Each R (as ++ as') (bs ++ bs') := by
  intro a mem
  rcases List.mem_append.mp mem with mem | mem
  · obtain ⟨b, memb, related⟩ := h a mem
    exact ⟨b, List.mem_append_left _ memb, related⟩
  · obtain ⟨b, memb, related⟩ := h' a mem
    exact ⟨b, List.mem_append_right _ memb, related⟩

/-- What every turn of a loop makes of its element is in the list. -/
theorem Ends.mapM_each {β : Type v} {f : α → Except ε β} {R : α → β → Prop} {as : List α}
    (turn : ∀ a, Ends F (R a) (f a)) : Ends F (Each R as) (as.mapM f) := by
  induction as with
  | nil => exact fun a mem => absurd mem List.not_mem_nil
  | cons a as ih =>
    rw [List.mapM_cons, ends_bind]
    refine (turn a).imp fun b hb => ?_
    rw [ends_bind]
    refine ih.imp fun bs hbs => List.forall_mem_cons.mpr ⟨⟨b, List.mem_cons_self, hb⟩, ?_⟩
    intro c mem
    obtain ⟨d, memd, related⟩ := hbs c mem
    exact ⟨d, List.mem_cons_of_mem b memd, related⟩

/-- What every turn of a loop keeps of its element is kept of the list. -/
theorem Ends.mapM_map {β γ : Type v} {f : α → Except ε β} {g : α → γ} {g' : β → γ} {as : List α}
    (turn : ∀ a, Ends F (fun b => g' b = g a) (f a)) :
    Ends F (fun bs => bs.map g' = as.map g) (as.mapM f) := by
  induction as with
  | nil => simp
  | cons a as ih =>
    rw [List.mapM_cons, ends_bind]
    refine (turn a).imp fun b hb => ?_
    rw [ends_bind]
    refine ih.imp fun bs hbs => ?_
    rw [ends_pure, List.map_cons, List.map_cons, hb, hbs]

/-- A loop ends with the invariant of its accumulator if each turn does. -/
theorem Ends.foldlM {β : Type v} {f : α → β → Except ε α} {bs : List β} {a : α}
    (turn : ∀ a b, b ∈ bs → P a → Ends F P (f a b)) (start : P a) : Ends F P (bs.foldlM f a) := by
  induction bs generalizing a with
  | nil => exact start
  | cons b bs ih =>
    rw [List.foldlM_cons, ends_bind]
    refine (turn a b List.mem_cons_self start).imp fun a' ha' => ?_
    exact ih (fun a c hc => turn a c (List.mem_cons_of_mem b hc)) ha'

/-- Where a loop may fail in no way that is allowed, it ends well exactly if no
turn fails. -/
theorem ends_mapM_iff {β : Type v} {f : α → Except ε β} {as : List α}
    (bad : ∀ a ∈ as, ∀ e, f a = .error e → ¬ F e) :
    Ends F (fun _ => True) (as.mapM f) ↔ ∀ a ∈ as, Ends F (fun _ => True) (f a) := by
  induction as with
  | nil => simp
  | cons a as ih =>
    have rest := ih fun c hc => bad c (List.mem_cons_of_mem a hc)
    rw [List.mapM_cons, ends_bind, List.forall_mem_cons, ← rest]
    cases h : f a with
    | error e =>
      have := bad a List.mem_cons_self e h
      simp [this]
    | ok b => simp

end NetLabs.Lib
