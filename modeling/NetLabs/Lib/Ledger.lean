/-
NetLabs.Lib.Ledger — append-only ledgers.

A ledger is the list of what happened, oldest first. `Justified rule ledger`
says that every entry obeys a rule about the entries before it. Whatever is
appended later leaves that alone, so a system keeps a rule as soon as each
new entry obeys it (`justified_snoc`). Bounds on how many entries of a kind
there are, and on how they follow each other, are read off the rule.

`Balanced accepted waiting settled` is double entry: each item accepted is
waiting or settled, exactly once altogether. `Balanced.accept` and
`Balanced.settle` are the only two ways a balanced system moves.
-/
import Mathlib.Data.List.Chain
import Mathlib.Data.List.Induction
import Mathlib.Data.List.Nodup
import Mathlib.Data.List.Perm.Basic

namespace NetLabs.Lib

universe u v

variable {ε : Type u} {τ : Type v}

/-! ## Entries justified by earlier ones -/

/-- Every entry obeys the rule about the entries before it. -/
def Justified (rule : List ε → ε → Prop) (ledger : List ε) : Prop :=
  ∀ before e after, ledger = before ++ e :: after → rule before e

section Justified

variable {rule : List ε → ε → Prop} {ledger : List ε}

theorem justified_nil : Justified rule [] := by
  intro before e after h
  simp at h

theorem justified_snoc {e : ε} :
    Justified rule (ledger ++ [e]) ↔ Justified rule ledger ∧ rule ledger e := by
  constructor
  · intro h
    refine ⟨fun before x after split => h before x (after ++ [e]) (by simp [split]), ?_⟩
    exact h ledger e [] rfl
  · rintro ⟨h, last⟩ before x after split
    rcases List.eq_nil_or_concat' after with rfl | ⟨init, y, rfl⟩
    · obtain ⟨rfl, rfl⟩ := List.append_inj' split rfl |>.imp id List.singleton_inj.mp
      exact last
    · rw [← List.cons_append, ← List.append_assoc] at split
      obtain ⟨rfl, -⟩ := List.append_inj' split rfl
      exact h before x init rfl

/-- A rule that new entries obey whatever new ones stand before them. -/
theorem Justified.append {new : List ε} (h : Justified rule ledger)
    (obey : ∀ before e after, new = before ++ e :: after → rule (ledger ++ before) e) :
    Justified rule (ledger ++ new) := by
  induction new using List.reverseRecOn with
  | nil => rwa [List.append_nil]
  | append_singleton new e ih =>
    rw [← List.append_assoc, justified_snoc]
    exact ⟨ih fun before x after split => obey before x (after ++ [e]) (by simp [split]),
      obey new e [] rfl⟩

/-- If an entry of a kind needs fewer than `n` before it, there are at most `n`. -/
theorem Justified.length_filterMap_le {f : ε → Option τ} {n : Nat} (h : Justified rule ledger)
    (few : ∀ before e x, rule before e → f e = some x → (before.filterMap f).length < n) :
    (ledger.filterMap f).length ≤ n := by
  induction ledger using List.reverseRecOn with
  | nil => exact Nat.zero_le n
  | append_singleton ledger e ih =>
    obtain ⟨h, last⟩ := justified_snoc.mp h
    rw [List.filterMap_append, List.length_append]
    cases hf : f e with
    | none =>
      rw [List.filterMap_cons_none hf, List.filterMap_nil, List.length_nil]
      exact ih h
    | some x =>
      have room := few ledger e x last hf
      rw [List.filterMap_cons_some hf, List.filterMap_nil, List.length_singleton]
      omega

/-- If an entry of a kind is related to the last one before it, consecutive
entries of this kind are related. -/
theorem Justified.isChain_filterMap {f : ε → Option τ} {r : τ → τ → Prop}
    (h : Justified rule ledger)
    (next : ∀ before e x, rule before e → f e = some x →
      ∀ y ∈ (before.filterMap f).getLast?, r y x) :
    (ledger.filterMap f).IsChain r := by
  induction ledger using List.reverseRecOn with
  | nil => exact .nil
  | append_singleton ledger e ih =>
    obtain ⟨h, last⟩ := justified_snoc.mp h
    rw [List.filterMap_append]
    cases hf : f e with
    | none =>
      rw [List.filterMap_cons_none hf, List.filterMap_nil, List.append_nil]
      exact ih h
    | some x =>
      rw [List.filterMap_cons_some hf, List.filterMap_nil, List.isChain_append]
      refine ⟨ih h, .singleton x, ?_⟩
      intro y hy z hz
      obtain rfl : x = z := by simpa using hz
      exact next ledger e x last hf y hy

end Justified

/-! ## Entries of a kind -/

/-- Entries made for the items of a list, one each. -/
theorem filterMap_entries {α : Type v} {κ : Type u} {entry : α → ε} {f : ε → Option κ} {k : α → κ}
    {items : List α} (h : ∀ a ∈ items, f (entry a) = some (k a)) :
    (items.map entry).filterMap f = items.map k := by
  induction items with
  | nil => rfl
  | cons a items ih =>
    rw [List.map_cons, List.filterMap_cons_some (h a List.mem_cons_self), List.map_cons,
      ih fun x hx => h x (List.mem_cons_of_mem a hx)]

/-- Entries of another kind. -/
theorem filterMap_no_entries {α : Type v} {κ : Type u} {entry : α → ε} {f : ε → Option κ}
    {items : List α} (h : ∀ a ∈ items, f (entry a) = none) :
    (items.map entry).filterMap f = [] := by
  rw [List.filterMap_eq_nil_iff]
  intro e he
  obtain ⟨a, ha, rfl⟩ := List.mem_map.mp he
  exact h a ha

/-! ## Double entry -/

/-- Each item accepted is waiting or settled, exactly once. An item is settled
with an outcome. -/
structure Balanced (accepted waiting : List ε) (settled : List (ε × τ)) : Prop where
  distinct : accepted.Nodup
  perm : accepted.Perm (waiting ++ settled.map Prod.fst)

namespace Balanced

variable {accepted waiting waiting' : List ε} {settled out : List (ε × τ)}

theorem nil : Balanced ([] : List ε) [] ([] : List (ε × τ)) := ⟨.nil, .refl _⟩

/-- A new item is accepted and waits. -/
theorem accept (h : Balanced accepted waiting settled) {x : ε} (fresh : x ∉ accepted)
    (waits : waiting'.Perm (x :: waiting)) : Balanced (accepted ++ [x]) waiting' settled where
  distinct := by
    rw [List.nodup_append]
    refine ⟨h.distinct, List.nodup_singleton x, ?_⟩
    intro y hy z hz
    obtain rfl := List.mem_singleton.mp hz
    exact fun heq => fresh (heq ▸ hy)
  perm := by
    have new : (accepted ++ [x]).Perm (x :: (waiting ++ settled.map Prod.fst)) :=
      List.perm_append_comm.trans (h.perm.cons x)
    exact new.trans (waits.symm.append_right _)

/-- Waiting items are settled. -/
theorem settle (h : Balanced accepted waiting settled)
    (leave : waiting.Perm (out.map Prod.fst ++ waiting')) :
    Balanced accepted waiting' (settled ++ out) where
  distinct := h.distinct
  perm := by
    rw [List.map_append]
    refine h.perm.trans ((leave.append_right _).trans ?_)
    rw [List.append_assoc]
    refine List.perm_append_comm.trans ?_
    rw [List.append_assoc]

/-- An accepted item is in exactly one place. -/
theorem count_eq_one [DecidableEq ε] (h : Balanced accepted waiting settled) {x : ε}
    (hx : x ∈ accepted) : waiting.count x + (settled.map Prod.fst).count x = 1 := by
  rw [← List.count_append, ← h.perm.count_eq]
  exact List.count_eq_one_of_mem h.distinct hx

end Balanced

end NetLabs.Lib
