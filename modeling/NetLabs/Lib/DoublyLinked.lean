/-
NetLabs.Lib.DoublyLinked — lists of nodes that know both of their neighbours.

`Seg heap p f ns l q` says that the nodes `ns`, each an address with the object
stored there, lie one behind the other: `f` is the pointer to the first one and
`l` the pointer to the last one, the first one has `p` before itself and the
last one `q` behind. Without nodes there are only the pointers: `f` is `q` and
`l` is `p`. A whole list (`Linked`) has nothing on either side.

Segments are appended (`seg_append`), and writes elsewhere leave them alone
(`seg_congr`). What a list operation does is relink the two ends that meet
where it works (`Seg.setNext`, `Seg.setPrev`), and with that a node comes in
(`Linked.insert`) or goes (`Linked.remove`). Where there is no neighbour it is
the pointer to the first or to the last node that changes. `Follows` is what a
loop over one of the pointers sees.
-/
import Mathlib.Data.List.Induction
import Mathlib.Data.List.Nodup
import Mathlib.Logic.Function.Basic

namespace NetLabs.Lib.DoublyLinked

variable {α : Type*}

/-! ## Nodes -/

structure Node (α : Type*) where
  next : Option Nat
  prev : Option Nat
  object : α
  deriving DecidableEq, Repr

/-- The nodes that are not freed. -/
abbrev Heap (α : Type*) : Type _ := Nat → Option (Node α)

/-- The addresses of nodes. -/
def addrs (ns : List (Nat × α)) : List Nat := ns.map Prod.fst

@[simp] theorem addrs_nil : addrs ([] : List (Nat × α)) = [] := rfl

@[simp] theorem addrs_cons (n : Nat × α) (ns : List (Nat × α)) :
    addrs (n :: ns) = n.1 :: addrs ns := rfl

@[simp] theorem addrs_append (ns ms : List (Nat × α)) : addrs (ns ++ ms) = addrs ns ++ addrs ms :=
  List.map_append

theorem nodup_addrs_middle {before after : List (Nat × α)} {n : Nat × α} :
    (addrs (before ++ n :: after)).Nodup ↔
      (n.1 ∉ addrs before ∧ n.1 ∉ addrs after) ∧ (addrs (before ++ after)).Nodup := by
  rw [addrs_append, addrs_cons, List.nodup_middle, List.nodup_cons, List.mem_append, not_or,
    ← addrs_append]

/-- A write through a pointer. Through NULL nothing is written. -/
def Heap.adjust (heap : Heap α) (p : Option Nat) (f : Node α → Node α) : Heap α :=
  match p with
  | none => heap
  | some a => Function.update heap a ((heap a).map f)

section

variable {heap : Heap α} {a b : Nat} {g : Node α → Node α}

@[simp] theorem adjust_none : heap.adjust none g = heap := rfl

theorem adjust_self (a : Nat) : heap.adjust (some a) g a = (heap a).map g :=
  Function.update_self ..

theorem adjust_of_ne {p : Option Nat} (h : p ≠ some b) : heap.adjust p g b = heap b := by
  cases p with
  | none => rfl
  | some a => exact Function.update_of_ne (fun same => h (congrArg some same.symm)) _ _

/-- Writes to different nodes. -/
theorem adjust_update_comm {p : Option Nat} (h : p ≠ some a) (n : Option (Node α)) :
    Heap.adjust (Function.update heap a n) p g = Function.update (heap.adjust p g) a n := by
  cases p with
  | none => rfl
  | some b =>
    have apart : b ≠ a := fun same => h (congrArg some same)
    rw [Heap.adjust, Heap.adjust, Function.update_of_ne apart, Function.update_comm apart]

/-- Writing to a node that was just stored. -/
theorem adjust_update_self (n : Node α) :
    Heap.adjust (Function.update heap a (some n)) (some a) g =
      Function.update heap a (some (g n)) := by
  rw [Heap.adjust, Function.update_self, Function.update_idem, Option.map_some]

end

/-! ## Segments -/

/-- The nodes `ns` from `f` to `l`, with `p` before and `q` behind them. -/
def Seg (heap : Heap α) : Option Nat → Option Nat → List (Nat × α) → Option Nat → Option Nat → Prop
  | p, f, [], l, q => l = p ∧ f = q
  | p, f, (a, x) :: ns, l, q =>
      f = some a ∧ ∃ next, heap a = some ⟨next, p, x⟩ ∧ Seg heap (some a) next ns l q

/-- A list with its two ends. -/
structure Linked (heap : Heap α) (head : Option Nat) (ns : List (Nat × α)) (tail : Option Nat) :
    Prop where
  seg : Seg heap none head ns tail none
  nodup : (addrs ns).Nodup

section

variable {heap heap' : Heap α} {p q f l : Option Nat} {ns ms : List (Nat × α)}

/-- Between two neighbours there is nothing. -/
theorem seg_nil (heap : Heap α) (p q : Option Nat) : Seg heap p q [] p q := ⟨rfl, rfl⟩

theorem seg_append :
    Seg heap p f (ns ++ ms) l q ↔ ∃ l' f', Seg heap p f ns l' f' ∧ Seg heap l' f' ms l q := by
  induction ns generalizing p f with
  | nil =>
    constructor
    · intro h
      exact ⟨p, f, ⟨rfl, rfl⟩, h⟩
    · rintro ⟨l', f', ⟨rfl, rfl⟩, h⟩
      exact h
  | cons n ns ih =>
    simp only [List.cons_append, Seg, ih]
    constructor
    · rintro ⟨first, next, here, l', f', front, back⟩
      exact ⟨l', f', ⟨first, next, here, front⟩, back⟩
    · rintro ⟨l', f', ⟨first, next, here, front⟩, back⟩
      exact ⟨first, next, here, l', f', front, back⟩

/-- Nothing but the nodes of a segment matters. -/
theorem seg_congr (same : ∀ a ∈ addrs ns, heap' a = heap a) :
    Seg heap' p f ns l q ↔ Seg heap p f ns l q := by
  induction ns generalizing p f with
  | nil => exact Iff.rfl
  | cons n ns ih =>
    rw [addrs_cons, List.forall_mem_cons] at same
    simp only [Seg, same.1, ih same.2]

theorem seg_update {a : Nat} (apart : a ∉ addrs ns) (n : Option (Node α)) :
    Seg (Function.update heap a n) p f ns l q ↔ Seg heap p f ns l q :=
  seg_congr fun _ hb => Function.update_of_ne (ne_of_mem_of_not_mem hb apart) _ _

theorem seg_adjust {r : Option Nat} (apart : ∀ a ∈ addrs ns, r ≠ some a) (g : Node α → Node α) :
    Seg (heap.adjust r g) p f ns l q ↔ Seg heap p f ns l q :=
  seg_congr fun a ha => adjust_of_ne (apart a ha)

/-- The nodes of a segment are there. -/
theorem Seg.allocated (h : Seg heap p f ns l q) {n : Nat × α} (mem : n ∈ ns) :
    ∃ next prev, heap n.1 = some ⟨next, prev, n.2⟩ := by
  induction ns generalizing p f with
  | nil => cases mem
  | cons m ns ih =>
    obtain ⟨-, next, here, rest⟩ := h
    rcases List.mem_cons.mp mem with rfl | later
    · exact ⟨next, p, here⟩
    · exact ih rest later

theorem Seg.exists_node {a : Nat} (h : Seg heap p f ns l q) (mem : a ∈ addrs ns) :
    ∃ n, heap a = some n := by
  obtain ⟨n, there, rfl⟩ := List.mem_map.mp mem
  obtain ⟨next, prev, here⟩ := h.allocated there
  exact ⟨_, here⟩

/-- The pointers to the ends lead to the ends. -/
theorem Seg.ends (h : Seg heap p f ns l q) :
    f = ((addrs ns).head?.or q) ∧ l = ((addrs ns).getLast?.or p) := by
  induction ns generalizing p f with
  | nil => exact ⟨h.2, h.1⟩
  | cons n ns ih =>
    obtain ⟨first, next, -, rest⟩ := h
    have last := (ih rest).2
    refine ⟨first, ?_⟩
    rw [last, addrs_cons, List.getLast?_cons]
    cases (addrs ns).getLast? <;> rfl

theorem Seg.first_mem {a : Nat} (h : Seg heap p (some a) ns l none) : a ∈ addrs ns := by
  cases ns with
  | nil => cases h.2
  | cons n ns => exact Option.some.inj h.1 ▸ List.mem_cons_self

theorem Seg.last_mem {a : Nat} (h : Seg heap none f ns (some a) q) : a ∈ addrs ns := by
  have last := h.ends.2
  rw [Option.or_none] at last
  exact List.mem_of_getLast? last.symm

/-- A node with no neighbour before it is the first one. -/
theorem Seg.at_first {a : Nat} (h : Seg heap none f ns p (some a)) (apart : a ∉ addrs ns) :
    p = none ↔ f = some a := by
  cases ns with
  | nil => exact iff_of_true h.1 h.2
  | cons n ns =>
    have other : f ≠ some a := by
      rintro rfl
      exact apart (Option.some.inj h.1 ▸ List.mem_cons_self)
    have last := h.ends.2
    rw [addrs_cons, List.getLast?_cons] at last
    rw [last]
    exact iff_of_false nofun other

/-- A node with no neighbour behind it is the last one. -/
theorem Seg.at_last {a : Nat} (h : Seg heap (some a) f ns l none) (apart : a ∉ addrs ns) :
    f = none ↔ l = some a := by
  obtain ⟨first, last⟩ := h.ends
  rw [Option.or_none] at first
  cases ns with
  | nil => exact iff_of_true first last
  | cons n ns =>
    rw [first, last]
    refine iff_of_false nofun fun same => apart ?_
    rw [addrs_cons, List.getLast?_cons, Option.some_or] at same
    exact List.mem_of_getLast? (List.getLast?_cons.trans same)

/-! ## Relinking an end -/

/-- Another pointer behind the last node. Where there is none it is the first
pointer that changes. -/
theorem Seg.setNext (h : Seg heap none f ns l q) (nodup : (addrs ns).Nodup) (v : Option Nat) :
    Seg (heap.adjust l fun n => { n with next := v }) none (if l = none then v else f) ns l v := by
  rcases List.eq_nil_or_concat' ns with rfl | ⟨ns, ⟨a, x⟩, rfl⟩
  · obtain ⟨rfl, -⟩ := h
    exact ⟨rfl, rfl⟩
  · obtain ⟨l', f', front, rfl, next, here, rfl, -⟩ := seg_append.mp h
    rw [addrs_append, List.nodup_append] at nodup
    have apart : a ∉ addrs ns := fun mem => nodup.2.2 a mem a List.mem_cons_self rfl
    have front' := (seg_update apart ((heap a).map fun n => { n with next := v })).mpr front
    rw [if_neg (Option.some_ne_none a)]
    refine seg_append.mpr ⟨l', some a, front', rfl, v, ?_, rfl, rfl⟩
    rw [adjust_self, here, Option.map_some]

/-- Another pointer before the first node. -/
theorem Seg.setPrev (h : Seg heap p f ns l none) (nodup : (addrs ns).Nodup) (v : Option Nat) :
    Seg (heap.adjust f fun n => { n with prev := v }) v f ns (if f = none then v else l) none := by
  cases ns with
  | nil =>
    obtain ⟨-, rfl⟩ := h
    exact ⟨rfl, rfl⟩
  | cons n ns =>
    obtain ⟨rfl, next, here, rest⟩ := h
    have apart : n.1 ∉ addrs ns := (List.nodup_cons.mp nodup).1
    rw [if_neg (Option.some_ne_none n.1)]
    refine ⟨rfl, next, ?_, (seg_update apart _).mpr rest⟩
    rw [adjust_self, here, Option.map_some]

end

/-! ## A node comes in or goes -/

section

variable {heap : Heap α} {before after : List (Nat × α)} {f l m m' p q : Option Nat} {a : Nat}
  {x : α}

/-- The neighbours of a place between two parts are nodes of different parts. -/
theorem neighbours_apart (front : Seg heap none f before m' q) (back : Seg heap p m after l none)
    (nodup : (addrs (before ++ after)).Nodup) :
    (∀ b ∈ addrs before, m ≠ some b) ∧ (∀ b ∈ addrs after, m' ≠ some b) := by
  rw [addrs_append, List.nodup_append] at nodup
  constructor
  · rintro b mem rfl
    exact nodup.2.2 b mem b back.first_mem rfl
  · rintro b mem rfl
    exact nodup.2.2 b front.last_mem b mem rfl

/-- A new node between its two neighbours. -/
def Heap.insertBetween (heap : Heap α) (m' m : Option Nat) (a : Nat) (x : α) : Heap α :=
  Function.update
    ((heap.adjust m fun n => { n with prev := some a }).adjust m'
      fun n => { n with next := some a })
    a (some ⟨m, m', x⟩)

/-- The neighbours of a node are linked to each other, and the node is freed. -/
def Heap.removeBetween (heap : Heap α) (m' m : Option Nat) (a : Nat) : Heap α :=
  Function.update
    ((heap.adjust m' fun n => { n with next := m }).adjust m fun n => { n with prev := m' }) a none

theorem Linked.insert (front : Seg heap none f before m' m) (back : Seg heap m' m after l none)
    (nodup : (addrs (before ++ after)).Nodup) (fresh : a ∉ addrs (before ++ after)) (x : α) :
    Linked (heap.insertBetween m' m a x)
      (if m' = none then some a else f) (before ++ (a, x) :: after)
      (if m = none then some a else l) := by
  have ⟨apart, apart'⟩ := neighbours_apart front back nodup
  rw [addrs_append, List.mem_append, not_or] at fresh
  have parts := List.nodup_append.mp (addrs_append before after ▸ nodup)
  constructor
  · refine seg_append.mpr ⟨m', some a, ?_, rfl, m, Function.update_self .., ?_⟩
    · exact (seg_update fresh.1 _).mpr (((seg_adjust apart _).mpr front).setNext parts.1 _)
    · exact (seg_update fresh.2 _).mpr ((seg_adjust apart' _).mpr (back.setPrev parts.2.1 _))
  · exact nodup_addrs_middle.mpr ⟨fresh, nodup⟩

/-- No other nodes are written. -/
theorem insertBetween_of_ne (front : Seg heap none f before m' m)
    (back : Seg heap m' m after l none) {b : Nat} (apart : b ∉ addrs (before ++ after))
    (ne : b ≠ a) (x : α) : heap.insertBetween m' m a x b = heap b := by
  rw [addrs_append, List.mem_append, not_or] at apart
  rw [Heap.insertBetween, Function.update_of_ne ne, adjust_of_ne, adjust_of_ne]
  · rintro rfl
    exact apart.2 back.first_mem
  · rintro rfl
    exact apart.1 front.last_mem

theorem Linked.remove (front : Seg heap none f before m' (some a))
    (back : Seg heap (some a) m after l none) (nodup : (addrs (before ++ (a, x) :: after)).Nodup) :
    Linked (heap.removeBetween m' m a) (if m' = none then m else f) (before ++ after)
      (if m = none then m' else l) := by
  obtain ⟨fresh, nodup⟩ := nodup_addrs_middle.mp nodup
  have ⟨apart, apart'⟩ := neighbours_apart front back nodup
  have parts := List.nodup_append.mp (addrs_append before after ▸ nodup)
  refine ⟨seg_append.mpr ⟨m', m, ?_, ?_⟩, nodup⟩
  · exact (seg_update fresh.1 _).mpr ((seg_adjust apart _).mpr (front.setNext parts.1 _))
  · exact (seg_update fresh.2 _).mpr (((seg_adjust apart' _).mpr back).setPrev parts.2.1 _)

theorem removeBetween_of_ne (front : Seg heap none f before m' q)
    (back : Seg heap p m after l none) {b : Nat} (apart : b ∉ addrs (before ++ after))
    (ne : b ≠ a) : heap.removeBetween m' m a b = heap b := by
  rw [addrs_append, List.mem_append, not_or] at apart
  rw [Heap.removeBetween, Function.update_of_ne ne, adjust_of_ne, adjust_of_ne]
  · rintro rfl
    exact apart.1 front.last_mem
  · rintro rfl
    exact apart.2 back.first_mem

end

/-! ## Following the pointers -/

/-- The nodes met when one of the two pointers is followed from `p`. -/
def Follows (link : Node α → Option Nat) (heap : Heap α) : Option Nat → List Nat → Prop
  | p, [] => p = none
  | p, a :: as => p = some a ∧ ∃ n, heap a = some n ∧ Follows link heap (link n) as

section

variable {heap : Heap α} {p f l q : Option Nat} {ns : List (Nat × α)}

theorem Seg.forward (h : Seg heap p f ns l none) : Follows Node.next heap f (addrs ns) := by
  induction ns generalizing p f with
  | nil => exact h.2
  | cons n ns ih =>
    obtain ⟨first, next, here, rest⟩ := h
    exact ⟨first, _, here, ih rest⟩

theorem Seg.backward (h : Seg heap none f ns l q) :
    Follows Node.prev heap l (addrs ns).reverse := by
  induction ns using List.reverseRecOn generalizing l q with
  | nil => exact h.1
  | append_singleton ns n ih =>
    obtain ⟨l', f', front, rfl, next, here, rfl, -⟩ := seg_append.mp h
    rw [addrs_append, List.reverse_append]
    exact ⟨rfl, _, here, ih front⟩

end

end NetLabs.Lib.DoublyLinked
