/-
NetLabs.Lib.While — loops that may go on for ever.

A computation with some fuel gives nothing when the fuel is used up, and else
an error or a value. `whileLoop` is a `while` loop whose body may be such a
computation itself, so loops can be nested; a body that fails leaves the loop.
`doWhile` tests behind the body.

Three rules, each with an invariant. What a loop returns satisfies the
invariant and not the test (`whileLoop_partial`). A loop whose turns lower a
measure ends with that much fuel (`whileLoop_total`). A loop in which the
invariant implies the test never ends (`whileLoop_diverges`).
-/
import NetLabs.Lib.Outcome

namespace NetLabs.Lib

universe u v

/-- A computation that has been given some fuel. -/
abbrev Fueled (ε : Type u) (α : Type v) : Type (max u v) := Option (Except ε α)

variable {ε : Type u} {σ : Type v}

/-- One computation after the other. -/
def Fueled.bind {α β : Type v} (x : Fueled ε α) (f : α → Fueled ε β) : Fueled ε β :=
  match x with
  | none => none
  | some (.error e) => some (.error e)
  | some (.ok a) => f a

theorem Fueled.bind_bind {α β γ : Type v} (x : Fueled ε α) (f : α → Fueled ε β)
    (g : β → Fueled ε γ) :
    Fueled.bind (Fueled.bind x f) g = Fueled.bind x fun a => Fueled.bind (f a) g := by
  match x with
  | none => rfl
  | some (.error e) => rfl
  | some (.ok a) => rfl

/-- `while (guard) body` -/
def whileLoop (guard : σ → Prop) [DecidablePred guard] (body : σ → Fueled ε σ) :
    Nat → σ → Fueled ε σ
  | 0, _ => none
  | fuel + 1, s =>
      if guard s then
        match body s with
        | none => none
        | some (.error e) => some (.error e)
        | some (.ok t) => whileLoop guard body fuel t
      else some (.ok s)

/-- `do body while (guard)` -/
def doWhile (body : σ → Fueled ε σ) (guard : σ → Prop) [DecidablePred guard] (fuel : Nat)
    (s : σ) : Fueled ε σ :=
  match body s with
  | none => none
  | some (.error e) => some (.error e)
  | some (.ok t) => whileLoop guard body fuel t

section

variable {guard : σ → Prop} [DecidablePred guard] {body : σ → Fueled ε σ} {fuel : Nat} {s : σ}
  {F : ε → Prop} (Inv : σ → Prop)

theorem whileLoop_exit (test : ¬ guard s) : whileLoop guard body (fuel + 1) s = some (.ok s) :=
  if_neg test

theorem whileLoop_turn {t : σ} (test : guard s) (run : body s = some (.ok t)) :
    whileLoop guard body (fuel + 1) s = whileLoop guard body fuel t := by
  rw [whileLoop, if_pos test, run]

/-- What a loop returns satisfies the invariant and not the test. -/
theorem whileLoop_partial
    (turn : ∀ s r, Inv s → guard s → body s = some r → Ends F Inv r) (start : Inv s)
    {r : Except ε σ} (ended : whileLoop guard body fuel s = some r) :
    Ends F (fun t => Inv t ∧ ¬ guard t) r := by
  induction fuel generalizing s with
  | zero => cases ended
  | succ fuel ih =>
    rw [whileLoop] at ended
    by_cases test : guard s
    · rw [if_pos test] at ended
      cases run : body s with
      | none => simp [run] at ended
      | some r' =>
        have kept := turn s r' start test run
        cases r' with
        | error e =>
          simp only [run, Option.some.injEq] at ended
          exact ended ▸ kept
        | ok t =>
          simp only [run] at ended
          exact ih kept ended
    · rw [if_neg test] at ended
      exact Option.some.inj ended ▸ ⟨start, test⟩

/-- A loop ends with as much fuel as its measure and one more. -/
theorem whileLoop_total (μ : σ → Nat) {P : σ → Prop}
    (turn : ∀ s, Inv s → guard s →
      ∃ r, body s = some r ∧ Ends F (fun t => Inv t ∧ μ t < μ s) r)
    (after : ∀ s, Inv s → ¬ guard s → P s) (start : Inv s) (enough : μ s < fuel) :
    ∃ r, whileLoop guard body fuel s = some r ∧ Ends F P r := by
  induction fuel generalizing s with
  | zero => exact absurd enough (Nat.not_lt_zero _)
  | succ fuel ih =>
    rw [whileLoop]
    by_cases test : guard s
    · rw [if_pos test]
      obtain ⟨r, run, kept⟩ := turn s start test
      rw [run]
      cases r with
      | error e => exact ⟨.error e, rfl, kept⟩
      | ok t => exact ih kept.1 (Nat.lt_of_lt_of_le kept.2 (Nat.le_of_lt_succ enough))
    · rw [if_neg test]
      exact ⟨.ok s, rfl, after s start test⟩

/-- A loop that keeps an invariant under which the test holds never ends. -/
theorem whileLoop_diverges
    (turn : ∀ s, Inv s → guard s ∧ ∀ r, body s = some r → Ends (fun _ => False) Inv r)
    (start : Inv s) : whileLoop guard body fuel s = none := by
  induction fuel generalizing s with
  | zero => rfl
  | succ fuel ih =>
    obtain ⟨test, kept⟩ := turn s start
    rw [whileLoop, if_pos test]
    cases run : body s with
    | none => rfl
    | some r =>
      have := kept r run
      cases r with
      | error e => exact this.elim
      | ok t => exact ih this

/-- The first turn of a `do` loop is made without a test. -/
theorem doWhile_partial
    (turn : ∀ s r, Inv s → guard s → body s = some r → Ends F Inv r)
    (first : ∀ r, body s = some r → Ends F Inv r) {r : Except ε σ}
    (ended : doWhile body guard fuel s = some r) : Ends F (fun t => Inv t ∧ ¬ guard t) r := by
  rw [doWhile] at ended
  cases run : body s with
  | none => simp [run] at ended
  | some r' =>
    have kept := first r' run
    cases r' with
    | error e =>
      simp only [run, Option.some.injEq] at ended
      exact ended ▸ kept
    | ok t =>
      simp only [run] at ended
      exact whileLoop_partial Inv turn kept ended

theorem doWhile_total (μ : σ → Nat) {P : σ → Prop}
    (turn : ∀ s, Inv s → guard s →
      ∃ r, body s = some r ∧ Ends F (fun t => Inv t ∧ μ t < μ s) r)
    (after : ∀ s, Inv s → ¬ guard s → P s)
    (first : ∃ r, body s = some r ∧ Ends F (fun t => Inv t ∧ μ t < fuel) r) :
    ∃ r, doWhile body guard fuel s = some r ∧ Ends F P r := by
  obtain ⟨r, run, kept⟩ := first
  rw [doWhile, run]
  cases r with
  | error e => exact ⟨.error e, rfl, kept⟩
  | ok t => exact whileLoop_total Inv μ turn after kept.1 kept.2

end

end NetLabs.Lib
