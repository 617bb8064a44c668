/-
NetLabs.Lib.Lts — labelled transition systems and what holds along a run.

A step relation `step : σ → ι → σ → Prop` relates a state, the input of one
step and the state after it. `Run step s is u` says that the inputs `is`, in
order, lead from `s` to `u`. The rules below are the only inductions over
runs: a development states what ONE step preserves and gets the whole run
from `Run.history` (a property of the state together with the inputs so far)
or from `Run.invariant` (a property of the state alone).

`Run.mono` compares runs of two step relations. Its usual instance is a
run of a `Guarded` relation: the steps that meet a condition on the state
before the step and on its input. A system given by a function runs by
`run_foldl`.
-/
import Mathlib.Logic.Relation

namespace NetLabs.Lib

universe u v

variable {σ : Type u} {ι : Type v}

/-! ## Runs -/

/-- The inputs, in order, lead from `s` to the last state. The newest step is
the outermost constructor, so an induction sees the history before it. -/
inductive Run (step : σ → ι → σ → Prop) (s : σ) : List ι → σ → Prop where
  | nil : Run step s [] s
  | snoc {is : List ι} {t u : σ} {i : ι} :
      Run step s is t → step t i u → Run step s (is ++ [i]) u

namespace Run

variable {step step' : σ → ι → σ → Prop} {s t u : σ} {is js : List ι}

/-- A property of inputs and state that holds at the start and is kept by
every step holds after every run. -/
theorem history (Q : List ι → σ → Prop) (start : Q [] s)
    (keep : ∀ {is t i u}, Run step s is t → Q is t → step t i u → Q (is ++ [i]) u)
    (h : Run step s is u) : Q is u := by
  induction h with
  | nil => exact start
  | snoc hrun hstep ih => exact keep hrun ih hstep

/-- A property of the state that holds at the start and is kept by every step
holds after every run. -/
theorem invariant (P : σ → Prop) (start : P s)
    (keep : ∀ {t i u}, P t → step t i u → P u) (h : Run step s is u) : P u :=
  history (fun _ t => P t) start (fun _ ht hs => keep ht hs) h

/-- A run of the smaller relation is a run of the larger one. -/
theorem mono (sub : ∀ {t i u}, step t i u → step' t i u) (h : Run step s is u) :
    Run step' s is u := by
  induction h with
  | nil => exact .nil
  | snoc _ hstep ih => exact .snoc ih (sub hstep)

/-- Where every step of one system is matched by a step of another one with
the same input, so is every run. -/
theorem simulate {τ : Type u} {impl : τ → ι → τ → Prop} (R : τ → σ → Prop)
    (keep : ∀ {m t i u}, R m t → step t i u → ∃ m', impl m i m' ∧ R m' u) {m : τ} (start : R m s)
    (h : Run step s is u) : ∃ m', Run impl m is m' ∧ R m' u := by
  induction h with
  | nil => exact ⟨m, .nil, start⟩
  | snoc _ hstep ih =>
    obtain ⟨m', run, related⟩ := ih
    obtain ⟨m'', next, related'⟩ := keep related hstep
    exact ⟨m'', .snoc run next, related'⟩

/-- One step is a run. -/
theorem single {i : ι} (h : step s i u) : Run step s [i] u :=
  Run.snoc .nil h

/-- Runs compose. -/
theorem trans (h : Run step s is t) (h' : Run step t js u) : Run step s (is ++ js) u := by
  induction h' with
  | nil => rwa [List.append_nil]
  | snoc _ hstep ih =>
    rw [← List.append_assoc]
    exact .snoc ih hstep

end Run

/-- The steps that meet a condition on the state before and on the input. -/
def Guarded (step : σ → ι → σ → Prop) (guard : σ → ι → Prop) (s : σ) (i : ι) (t : σ) : Prop :=
  step s i t ∧ guard s i

theorem Run.unguarded {step : σ → ι → σ → Prop} {guard : σ → ι → Prop} {s u : σ} {is : List ι}
    (h : Run (Guarded step guard) s is u) : Run step s is u :=
  h.mono And.left

/-! ## Systems given by a function -/

/-- Each input of the list is allowed in the state it meets. -/
def allowed (ok : σ → ι → Bool) (next : σ → ι → σ) : σ → List ι → Bool
  | _, [] => true
  | s, i :: is => ok s i && allowed ok next (next s i) is

/-- If the allowed inputs are steps, a list of them is a run. -/
theorem run_foldl {step : σ → ι → σ → Prop} (ok : σ → ι → Bool) {next : σ → ι → σ}
    (sound : ∀ s i, ok s i = true → step s i (next s i)) {s : σ} {is : List ι}
    (h : allowed ok next s is = true) : Run step s is (is.foldl next s) := by
  induction is generalizing s with
  | nil => exact .nil
  | cons i is ih =>
    rw [allowed, Bool.and_eq_true] at h
    exact (Run.single (sound s i h.1)).trans (ih h.2)

/-- The inputs of a list are handled one after the other by a function that
may fail; they are a run exactly if none fails. -/
theorem run_iff_foldlM {next : σ → ι → Option σ} {s u : σ} {is : List ι} :
    Run (fun s i t => next s i = some t) s is u ↔ is.foldlM next s = some u := by
  constructor
  · intro h
    induction h with
    | nil => rfl
    | snoc _ hstep ih =>
      rw [List.foldlM_append, ih]
      show List.foldlM next _ [_] = some _
      rw [List.foldlM_cons, hstep]
      rfl
  · intro h
    induction is generalizing s with
    | nil =>
      obtain rfl : s = u := by simpa using h
      exact .nil
    | cons i is ih =>
      rw [List.foldlM_cons, Option.bind_eq_bind, Option.bind_eq_some_iff] at h
      obtain ⟨t, hstep, hrest⟩ := h
      have first : Run (fun s i t => next s i = some t) s [i] t := .single hstep
      exact first.trans (ih hrest)

/-- The inputs of a list that a function handles without an error are a run. -/
theorem run_foldlM_ok {ε : Type u} {next : σ → ι → Except ε σ} {s u : σ} {is : List ι}
    (h : is.foldlM next s = .ok u) : Run (fun s i t => next s i = .ok t) s is u := by
  induction is generalizing s with
  | nil =>
    obtain rfl := Except.ok.inj h
    exact .nil
  | cons i is ih =>
    rw [List.foldlM_cons] at h
    cases hstep : next s i with
    | error e =>
      rw [hstep] at h
      cases h
    | ok t =>
      rw [hstep] at h
      have first : Run (fun s i t => next s i = .ok t) s [i] t := .single hstep
      exact first.trans (ih h)

/-- Inputs that are allowed in the state they meet, and handled, are a run. -/
theorem run_foldlM {step : σ → ι → σ → Prop} (ok : σ → ι → Bool) {next : σ → ι → Option σ}
    (sound : ∀ s i t, ok s i = true → next s i = some t → step s i t) {s u : σ} {is : List ι}
    (h : is.foldlM (fun s i => if ok s i then next s i else none) s = some u) :
    Run step s is u := by
  refine Run.mono (fun {t i v} hstep => ?_) (run_iff_foldlM.mpr h)
  split at hstep
  · rename_i hok
    exact sound t i v hok hstep
  · cases hstep

/-- Inputs that are handled, and of which `ok` tells that they meet a guard, are
a run of the guarded relation. -/
theorem run_guarded {next : σ → ι → Option σ} {guard : σ → ι → Prop} (ok : σ → ι → Bool)
    {s u : σ} {is : List ι} (sound : ∀ i ∈ is, ∀ t, ok t i = true → guard t i)
    (h : is.foldlM (fun s i => if ok s i then next s i else none) s = some u) :
    Run (Guarded (fun s i t => next s i = some t) guard) s is u := by
  induction is generalizing s with
  | nil =>
    obtain rfl : s = u := by simpa using h
    exact .nil
  | cons i is ih =>
    rw [List.foldlM_cons, Option.bind_eq_bind, Option.bind_eq_some_iff] at h
    obtain ⟨t, hstep, hrest⟩ := h
    split at hstep
    · rename_i hok
      have first : Guarded (fun s i t => next s i = some t) guard s i t :=
        ⟨hstep, sound i List.mem_cons_self s hok⟩
      exact (Run.single first).trans (ih (fun j hj => sound j (List.mem_cons_of_mem i hj)) hrest)
    · cases hstep

/-- Where no input allowed by `ok` fails from a state with a property that
the inputs keep, no list of them fails. -/
theorem foldlM_total {next : σ → ι → Option σ} (P : σ → Prop) (ok : ι → Prop)
    (keep : ∀ {s i}, P s → ok i → ∃ t, next s i = some t ∧ P t) {s : σ} {is : List ι} (hs : P s)
    (hok : ∀ i ∈ is, ok i) : ∃ t, is.foldlM next s = some t ∧ P t := by
  induction is generalizing s with
  | nil => exact ⟨s, rfl, hs⟩
  | cons i is ih =>
    obtain ⟨t, hstep, ht⟩ := keep hs (hok i List.mem_cons_self)
    obtain ⟨u, hrest, hu⟩ := ih ht fun j hj => hok j (List.mem_cons_of_mem i hj)
    exact ⟨u, by rw [List.foldlM_cons, hstep]; exact hrest, hu⟩

/-! ## Chains of unlabelled small steps -/

/-- A property kept by every small step is kept by a chain of them. -/
theorem chain_invariant {r : σ → σ → Prop} (P : σ → Prop)
    (keep : ∀ {t u}, P t → r t u → P u) {s u : σ}
    (h : Relation.ReflTransGen r s u) (hs : P s) : P u := by
  induction h with
  | refl => exact hs
  | tail _ hstep ih => exact keep ih hstep

end NetLabs.Lib
