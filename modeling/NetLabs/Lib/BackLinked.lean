/-
NetLabs.Lib.BackLinked — linked lists whose cells know the variable that
points to them.

A cell holds the pointer `next` and, in `prev`, the address of the variable
it hangs on: the `next` of the cell before it, or a variable outside of the
list. With that a cell is taken out of the middle without a search: its `next`
is stored in that variable.

`Seg` says that from the variable `slot`, which contains `p`, the cells `as`
follow, and that the last of them leaves `q` in the variable `slot'`.
Everything about insertion and removal comes from three facts: segments are
appended (`seg_append`), a write elsewhere leaves them alone (`seg_congr`),
and the `prev` of the first cell and the `next` of the last one can be set
(`seg_setPrev`, `seg_setNext`). `Reaches` is what a loop over `next` sees.
-/
import Mathlib.Data.List.Basic
import Mathlib.Logic.Function.Basic

namespace NetLabs.Lib.BackLinked

variable {β : Type*}

/-! ## Cells -/

/-- A variable that points to a cell. -/
inductive Slot where
  | outside
  | next (a : Nat)
  deriving DecidableEq, Repr

structure Cell (β : Type*) where
  next : Option Nat
  prev : Option Slot
  val : β

/-- The cells that are not freed. -/
abbrev Heap (β : Type*) : Type _ := Nat → Option (Cell β)

/-- A write to a cell, which must not be freed. -/
def Heap.modify (heap : Heap β) (a : Nat) (f : Cell β → Cell β) : Option (Heap β) :=
  (heap a).map fun c => Function.update heap a (some (f c))

theorem modify_eq {heap : Heap β} {a : Nat} {c : Cell β} (h : heap a = some c)
    (f : Cell β → Cell β) : heap.modify a f = some (Function.update heap a (some (f c))) := by
  rw [Heap.modify, h, Option.map_some]

/-! ## Lists -/

/-- The cells met when `next` is followed from `p`. -/
def Reaches (heap : Heap β) : Option Nat → List Nat → Prop
  | p, [] => p = none
  | p, a :: as => p = some a ∧ ∃ c, heap a = some c ∧ Reaches heap c.next as

/-- From one pointer only one list of cells is met. -/
theorem Reaches.unique {heap : Heap β} {p : Option Nat} {as bs : List Nat}
    (h : Reaches heap p as) (h' : Reaches heap p bs) : as = bs := by
  induction as generalizing p bs with
  | nil =>
    cases bs with
    | nil => rfl
    | cons b bs => cases h.symm.trans h'.1
  | cons a as ih =>
    obtain ⟨rfl, c, hc, rest⟩ := h
    cases bs with
    | nil => cases h'
    | cons b bs =>
      obtain ⟨same, c', hc', rest'⟩ := h'
      obtain rfl := Option.some.inj same
      rw [hc] at hc'
      obtain rfl := Option.some.inj hc'
      rw [ih rest rest']

/-- The cells `as` from the variable `slot`, which contains `p`, to the
variable `slot'`, which contains `q`; the value of a cell is given by `val`. -/
def Seg (val : Nat → β) (heap : Heap β) : Slot → Option Nat → List Nat → Slot → Option Nat → Prop
  | slot, p, [], slot', q => slot = slot' ∧ p = q
  | slot, p, a :: as, slot', q =>
      p = some a ∧ ∃ c, heap a = some c ∧ c.prev = some slot ∧ c.val = val a ∧
        Seg val heap (.next a) c.next as slot' q

/-- A whole list. -/
def Linked (val : Nat → β) (heap : Heap β) (slot : Slot) (p : Option Nat) (as : List Nat) : Prop :=
  ∃ slot', Seg val heap slot p as slot' none

section

variable {val : Nat → β} {heap : Heap β} {slot slot' : Slot} {p q : Option Nat}

theorem Linked.reaches {as : List Nat} (h : Linked val heap slot p as) : Reaches heap p as := by
  obtain ⟨slot', h⟩ := h
  induction as generalizing slot p with
  | nil => exact h.2
  | cons a as ih =>
    obtain ⟨rfl, c, hc, -, -, rest⟩ := h
    exact ⟨rfl, c, hc, ih rest⟩

/-- The cells of a segment are there. -/
theorem Seg.allocated {as : List Nat} (h : Seg val heap slot p as slot' q) :
    ∀ a ∈ as, ∃ c, heap a = some c := by
  induction as generalizing slot p with
  | nil => exact List.forall_mem_nil _
  | cons b as ih =>
    obtain ⟨-, c, hc, -, -, rest⟩ := h
    exact List.forall_mem_cons.mpr ⟨⟨c, hc⟩, ih rest⟩

/-- Other values in the same cells. -/
theorem Seg.revalue {val' : Nat → β} {as : List Nat} (h : Seg val heap slot p as slot' q) :
    Seg val' (fun a => (heap a).map fun c => { c with val := val' a }) slot p as slot' q := by
  induction as generalizing slot p with
  | nil => exact h
  | cons a as ih =>
    obtain ⟨rfl, c, hc, prev, -, rest⟩ := h
    exact ⟨rfl, { c with val := val' a }, by simp only [hc, Option.map_some], prev, rfl, ih rest⟩

theorem seg_append {as bs : List Nat} :
    Seg val heap slot p (as ++ bs) slot' q ↔
      ∃ s r, Seg val heap slot p as s r ∧ Seg val heap s r bs slot' q := by
  induction as generalizing slot p with
  | nil => simp [Seg]
  | cons a as ih =>
    simp only [List.cons_append, Seg, ih]
    constructor
    · rintro ⟨rfl, c, hc, prev, value, s, r, front, back⟩
      exact ⟨s, r, ⟨rfl, c, hc, prev, value, front⟩, back⟩
    · rintro ⟨s, r, ⟨rfl, c, hc, prev, value, front⟩, back⟩
      exact ⟨rfl, c, hc, prev, value, s, r, front, back⟩

/-- Nothing but the cells of a segment matters. -/
theorem seg_congr {heap' : Heap β} {as : List Nat} (same : ∀ a ∈ as, heap' a = heap a) :
    Seg val heap' slot p as slot' q ↔ Seg val heap slot p as slot' q := by
  induction as generalizing slot p with
  | nil => exact Iff.rfl
  | cons b as ih =>
    rw [List.forall_mem_cons] at same
    simp only [Seg, same.1, ih same.2]

theorem Seg.congr_val {val' : Nat → β} {as : List Nat} (h : Seg val heap slot p as slot' q)
    (same : ∀ a ∈ as, val' a = val a) : Seg val' heap slot p as slot' q := by
  induction as generalizing slot p with
  | nil => exact h
  | cons a as ih =>
    rw [List.forall_mem_cons] at same
    obtain ⟨rfl, c, hc, prev, value, rest⟩ := h
    exact ⟨rfl, c, hc, prev, value.trans same.1.symm, ih rest same.2⟩

/-- A write to a cell outside of the segment. -/
theorem seg_update {as : List Nat} {a : Nat} (apart : a ∉ as) (c : Option (Cell β)) :
    Seg val (Function.update heap a c) slot p as slot' q ↔ Seg val heap slot p as slot' q := by
  apply seg_congr
  intro b hb
  exact Function.update_of_ne (ne_of_mem_of_not_mem hb apart) _ _

/-- The first cell is hung on another variable. -/
theorem seg_setPrev {as : List Nat} {a : Nat} {c : Cell β}
    (h : Seg val heap slot p (a :: as) slot' q) (hc : heap a = some c) (apart : a ∉ as) (s : Slot) :
    Seg val (Function.update heap a (some { c with prev := some s })) s p (a :: as) slot' q := by
  obtain ⟨rfl, c', hc', -, value, rest⟩ := h
  rw [hc] at hc'
  obtain rfl := Option.some.inj hc'
  exact ⟨rfl, _, Function.update_self .., rfl, value, (seg_update apart _).mpr rest⟩

/-- Another pointer is stored in the last cell. -/
theorem seg_setNext {as : List Nat} {a : Nat} {c : Cell β}
    (h : Seg val heap slot p (as ++ [a]) slot' q) (hc : heap a = some c) (apart : a ∉ as)
    (r : Option Nat) :
    slot' = .next a ∧
      Seg val (Function.update heap a (some { c with next := r })) slot p (as ++ [a]) slot' r := by
  obtain ⟨s, q', front, rfl, c', hc', prev, value, rfl, -⟩ := seg_append.mp h
  rw [hc] at hc'
  obtain rfl := Option.some.inj hc'
  exact ⟨rfl, seg_append.mpr ⟨s, some a, (seg_update apart _).mpr front, rfl, _,
    Function.update_self .., prev, value, rfl, rfl⟩⟩

end

end NetLabs.Lib.BackLinked
