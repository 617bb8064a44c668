/-
NetLabs.Ctcp.LinkedList — the linked lists of `lab3/ctcp_linked_list.c`, in
memory.

The functions are written with the pointers they follow and set, in the order
of the source. An access through NULL or to a node that is freed fails. Every
function that allocates is given the address `calloc` returns, which is one
that is not in use.

Under the lists stand sequences: of each list the nodes from front to back,
with their objects. `ListMemory.Represents` connects the two for all lists at
once, and every run of operations keeps it (`run_represents`). What a caller
relies on follows: the pointers lead through the nodes in both directions
(`Holds.wellFormed`), and `ll_find` finds the first node with an object
(`findLoop_eq`). The length is an `unsigned int`, so it is the number of nodes
modulo 2^32.
-/
import NetLabs.Lib.DoublyLinked
import NetLabs.Lib.Lts

namespace NetLabs.Ctcp

open NetLabs.Lib NetLabs.Lib.DoublyLinked

/-! ## The memory -/

/-- A pointer. -/
abbrev Ptr : Type := Option Nat

/-- `linked_list_t` -/
structure LinkedList where
  head : Ptr
  tail : Ptr
  length : UInt32
  deriving DecidableEq, Repr

/-- The nodes and the lists that are allocated. The object of a node is the
address that was stored there, which is never NULL. -/
structure ListMemory where
  nodes : Heap Nat
  lists : Nat → Option LinkedList

namespace ListMemory

/-- Nothing is allocated. -/
def empty : ListMemory := ⟨fun _ => none, fun _ => none⟩

/-- The address is not in use. -/
def Free (m : ListMemory) (a : Nat) : Prop := m.nodes a = none ∧ m.lists a = none

instance (m : ListMemory) (a : Nat) : Decidable (m.Free a) :=
  inferInstanceAs (Decidable (_ ∧ _))

/-- A write through a pointer to a node. -/
def setNode (m : ListMemory) (p : Ptr) (f : Node Nat → Node Nat) : Option ListMemory := do
  let a ← p
  let _ ← m.nodes a
  some { m with nodes := m.nodes.adjust p f }

/-- A write to a list. -/
def setList (m : ListMemory) (a : Nat) (f : LinkedList → LinkedList) : Option ListMemory := do
  let list ← m.lists a
  some { m with lists := Function.update m.lists a (some (f list)) }

/-! ## The functions -/

/-- `ll_create()` -/
def llCreate (m : ListMemory) (fresh : Nat) : Option (ListMemory × Ptr) :=
  if m.Free fresh then
    some ({ m with lists := Function.update m.lists fresh (some ⟨none, none, 0⟩) }, some fresh)
  else none

/-- `ll_create_node(object)` -/
def llCreateNode (m : ListMemory) (object fresh : Nat) : Option ListMemory :=
  if m.Free fresh then
    some { m with nodes := Function.update m.nodes fresh (some ⟨none, none, object⟩) }
  else none

/-- `ll_add(list, object)` -/
def llAdd (m : ListMemory) (list object : Ptr) (fresh : Nat) : Option (ListMemory × Ptr) :=
  match list, object with
  | some list, some object => do
      let m ← m.llCreateNode object fresh
      let node : Ptr := some fresh
      let l ← m.lists list
      let m ← if l.head = none then
          m.setList list fun l => { l with head := node, tail := node }
        else do
          let m ← m.setNode l.tail fun n => { n with next := node }
          let m ← m.setNode node fun n => { n with prev := l.tail }
          m.setList list fun l => { l with tail := node }
      let m ← m.setList list fun l => { l with length := l.length + 1 }
      some (m, node)
  | _, _ => some (m, none)

/-- `ll_add_front(list, object)` -/
def llAddFront (m : ListMemory) (list object : Ptr) (fresh : Nat) : Option (ListMemory × Ptr) :=
  match list, object with
  | some list, some object => do
      let m ← m.llCreateNode object fresh
      let node : Ptr := some fresh
      let l ← m.lists list
      let m ← if l.head = none then
          m.setList list fun l => { l with head := node, tail := node }
        else do
          let m ← m.setNode node fun n => { n with next := l.head }
          let m ← m.setNode l.head fun n => { n with prev := node }
          m.setList list fun l => { l with head := node }
      let m ← m.setList list fun l => { l with length := l.length + 1 }
      some (m, node)
  | _, _ => some (m, none)

/-- `ll_add_after(list, node, object)` -/
def llAddAfter (m : ListMemory) (list node object : Ptr) (fresh : Nat) :
    Option (ListMemory × Ptr) :=
  match list, node, object with
  | some list, some node, some object => do
      let m ← m.llCreateNode object fresh
      let newNode : Ptr := some fresh
      let m ← m.setNode newNode fun n => { n with prev := some node }
      let n ← m.nodes node
      let m ← m.setNode newNode fun new => { new with next := n.next }
      let m ← if n.next ≠ none then m.setNode n.next fun n => { n with prev := newNode }
        else some m
      let m ← m.setNode (some node) fun n => { n with next := newNode }
      let l ← m.lists list
      let m ← if some node = l.tail then m.setList list fun l => { l with tail := newNode }
        else some m
      let m ← m.setList list fun l => { l with length := l.length + 1 }
      some (m, newNode)
  | _, _, _ => some (m, none)

/-- `ll_remove(list, node)` -/
def llRemove (m : ListMemory) (list node : Ptr) : Option (ListMemory × Ptr) :=
  match list, node with
  | some list, some node => do
      let n ← m.nodes node
      let l ← m.lists list
      let m ← if some node = l.head then m.setList list fun l => { l with head := n.next }
        else m.setNode n.prev fun prev => { prev with next := n.next }
      let l ← m.lists list
      let n' ← m.nodes node
      let m ← if some node = l.tail then m.setList list fun l => { l with tail := n'.prev }
        else m.setNode n'.next fun next => { next with prev := n'.prev }
      let m := { m with nodes := Function.update m.nodes node none }
      let m ← m.setList list fun l => { l with length := l.length - 1 }
      some (m, some n.object)
  | _, _ => some (m, none)

/-- The loop of `ll_find`, from `curr` on. -/
def findLoop (m : ListMemory) (object : Nat) : Nat → Ptr → Option Ptr
  | 0, _ => none
  | _ + 1, none => some none
  | fuel + 1, some curr => do
      let n ← m.nodes curr
      if n.object = object then some (some curr) else findLoop m object fuel n.next

/-- `ll_find(list, object)`, for at most `fuel` turns. -/
def llFind (m : ListMemory) (fuel : Nat) (list object : Ptr) : Option Ptr :=
  match list, object with
  | some list, some object => do
      let l ← m.lists list
      m.findLoop object fuel l.head
  | _, _ => some none

/-- The loop of `ll_destroy`, from `curr` on. -/
def freeLoop : Nat → Ptr → ListMemory → Option ListMemory
  | 0, _, _ => none
  | _ + 1, none, m => some m
  | fuel + 1, some curr, m => do
      let n ← m.nodes curr
      freeLoop fuel n.next { m with nodes := Function.update m.nodes curr none }

/-- `ll_destroy(list)`, for at most `fuel` turns. The objects are not freed. -/
def llDestroy (m : ListMemory) (fuel : Nat) (list : Ptr) : Option ListMemory :=
  match list with
  | none => some m
  | some list => do
      let l ← m.lists list
      let m ← freeLoop fuel l.head m
      some { m with lists := Function.update m.lists list none }

/-- `ll_front(list)` -/
def llFront (m : ListMemory) (list : Nat) : Option Ptr := do
  let l ← m.lists list
  some l.head

/-- `ll_back(list)` -/
def llBack (m : ListMemory) (list : Nat) : Option Ptr := do
  let l ← m.lists list
  some l.tail

/-- `ll_length(list)` -/
def llLength (m : ListMemory) (list : Nat) : Option UInt32 := do
  let l ← m.lists list
  some l.length

/-! ## One list -/

/-- The list consists of these nodes with these objects. -/
def Holds (m : ListMemory) (list : Nat) (ns : List (Nat × Nat)) : Prop :=
  ∃ l, m.lists list = some l ∧ Linked m.nodes l.head ns l.tail ∧
    l.length = UInt32.ofNat ns.length

/-- Of all that is in the memory, one list has changed. -/
structure Changes (m m' : ListMemory) (list : Nat) (ns ns' : List (Nat × Nat)) : Prop where
  holds : m'.Holds list ns'
  lists : ∀ l ≠ list, m'.lists l = m.lists l
  kept : ∀ a ∉ addrs ns, a ∉ addrs ns' → m'.nodes a = m.nodes a
  freed : ∀ a ∈ addrs ns, a ∉ addrs ns' → m'.nodes a = none

section

variable {m : ListMemory} {list fresh x : Nat} {l : LinkedList} {before after : List (Nat × Nat)}
  {p q : Ptr}

/-- A free address is not that of a node of a list. -/
theorem Free.not_mem {ns : List (Nat × Nat)} (free : m.Free fresh)
    (linked : Linked m.nodes p ns q) : fresh ∉ addrs ns := by
  intro mem
  obtain ⟨n, here⟩ := linked.seg.exists_node mem
  rw [free.1] at here
  cases here

theorem Free.ne {a : Nat} {n : Node Nat} (free : m.Free fresh) (here : m.nodes a = some n) :
    a ≠ fresh := by
  rintro rfl
  rw [free.1] at here
  cases here

theorem Free.some_ne {a : Nat} {n : Node Nat} (free : m.Free fresh) (here : m.nodes a = some n) :
    some a ≠ some fresh :=
  fun same => free.ne here (Option.some.inj same)

/-- A node is put between two others. -/
theorem changes_insert (list : Nat)
    (front : Seg m.nodes none l.head before p q) (back : Seg m.nodes p q after l.tail none)
    (linked : Linked m.nodes l.head (before ++ after) l.tail)
    (length : l.length = UInt32.ofNat (before ++ after).length) (free : m.Free fresh) (x : Nat) :
    Changes m
      ⟨m.nodes.insertBetween p q fresh x, Function.update m.lists list
        (some ⟨if p = none then some fresh else l.head, if q = none then some fresh else l.tail,
          l.length + 1⟩)⟩
      list (before ++ after) (before ++ (fresh, x) :: after) where
  holds := by
    refine ⟨_, Function.update_self .., .insert front back linked.nodup (free.not_mem linked) x, ?_⟩
    show l.length + 1 = _
    rw [length, List.length_append, List.length_append, List.length_cons, ← Nat.add_assoc,
      UInt32.ofNat_add _ 1]
    rfl
  lists _ ne := Function.update_of_ne ne _ _
  kept a apart apart' := by
    refine insertBetween_of_ne front back apart ?_ x
    rintro rfl
    simp at apart'
  freed a mem gone := by
    simp only [addrs_append, addrs_cons, List.mem_append, List.mem_cons] at mem gone
    exact absurd (mem.imp_right .inr) gone

/-- A node is taken out. -/
theorem changes_remove {a y : Nat} (list : Nat)
    (front : Seg m.nodes none l.head before p (some a))
    (back : Seg m.nodes (some a) q after l.tail none)
    (nodup : (addrs (before ++ (a, y) :: after)).Nodup)
    (length : l.length = UInt32.ofNat (before ++ (a, y) :: after).length) :
    Changes m
      ⟨m.nodes.removeBetween p q a, Function.update m.lists list
        (some ⟨if p = none then q else l.head, if q = none then p else l.tail, l.length - 1⟩)⟩
      list (before ++ (a, y) :: after) (before ++ after) where
  holds := by
    refine ⟨_, Function.update_self .., .remove front back nodup, ?_⟩
    show l.length - 1 = _
    rw [length, List.length_append, List.length_append, List.length_cons, ← Nat.add_assoc,
      UInt32.ofNat_add _ 1]
    exact UInt32.add_sub_cancel _ _
  lists _ ne := Function.update_of_ne ne _ _
  kept b apart apart' := by
    refine removeBetween_of_ne front back apart' ?_
    rintro rfl
    simp at apart
  freed b mem gone := by
    simp only [addrs_append, addrs_cons, List.mem_append, List.mem_cons, not_or] at mem gone
    obtain rfl : b = a := (mem.resolve_left gone.1).resolve_right gone.2
    exact Function.update_self ..

/-- `ll_add` puts the object at the end. -/
theorem llAdd_spec {ns : List (Nat × Nat)} (holds : m.Holds list ns) (free : m.Free fresh)
    (x : Nat) :
    ∃ m', m.llAdd (some list) (some x) fresh = some (m', some fresh) ∧
      Changes m m' list ns (ns ++ [(fresh, x)]) := by
  obtain ⟨l, hl, linked, length⟩ := holds
  have change : Changes m _ list (ns ++ []) (ns ++ [(fresh, x)]) :=
    changes_insert list linked.seg (seg_nil ..) (by rwa [List.append_nil])
      (by rwa [List.append_nil]) free x
  rw [List.append_nil] at change
  refine ⟨_, ?_, change⟩
  obtain ⟨first, last⟩ := linked.seg.ends
  rw [Option.or_none] at first last
  rcases List.eq_nil_or_concat' ns with rfl | ⟨ns, n, rfl⟩
  · have head : l.head = none := first
    have tail : l.tail = none := last
    simp [llAdd, llCreateNode, free, setList, hl, head, tail, Heap.insertBetween]
  · have head : l.head ≠ none := by simp [first]
    have tail : l.tail = some n.1 := by simp [last]
    obtain ⟨next, prev, here⟩ := linked.seg.allocated
      (List.mem_append_right ns (List.mem_singleton_self n))
    simp [llAdd, llCreateNode, free, setList, setNode, hl, head, tail, Heap.insertBetween, here,
      Function.update_of_ne (free.ne here), adjust_update_comm (free.some_ne here),
      adjust_update_self]

/-- `ll_add_front` puts it at the front. -/
theorem llAddFront_spec {ns : List (Nat × Nat)} (holds : m.Holds list ns) (free : m.Free fresh)
    (x : Nat) :
    ∃ m', m.llAddFront (some list) (some x) fresh = some (m', some fresh) ∧
      Changes m m' list ns ((fresh, x) :: ns) := by
  obtain ⟨l, hl, linked, length⟩ := holds
  have change : Changes m _ list ([] ++ ns) ([] ++ (fresh, x) :: ns) :=
    changes_insert list (seg_nil ..) linked.seg linked length free x
  refine ⟨_, ?_, change⟩
  -- the code links the new node first and the old head last, `insertBetween` the other way
  have first := linked.seg.ends.1
  cases ns with
  | nil =>
    have head : l.head = none := first
    simp [llAddFront, llCreateNode, free, setList, hl, head, Heap.insertBetween]
  | cons n ns =>
    have head : l.head = some n.1 := first
    obtain ⟨next, prev, here⟩ := linked.seg.allocated List.mem_cons_self
    simp [llAddFront, llCreateNode, free, setList, setNode, hl, head, Heap.insertBetween, here,
      Function.update_of_ne (free.ne here), adjust_update_comm (free.some_ne here),
      adjust_update_self]

/-- `ll_add_after` puts it behind the node. -/
theorem llAddAfter_spec {a y : Nat} (holds : m.Holds list (before ++ (a, y) :: after))
    (free : m.Free fresh) (x : Nat) :
    ∃ m', m.llAddAfter (some list) (some a) (some x) fresh = some (m', some fresh) ∧
      Changes m m' list (before ++ (a, y) :: after)
        (before ++ (a, y) :: (fresh, x) :: after) := by
  obtain ⟨l, hl, linked, length⟩ := holds
  have whole : before ++ (a, y) :: after = before ++ [(a, y)] ++ after := List.append_cons ..
  obtain ⟨p, f, front, rfl, q, here, back⟩ := seg_append.mp linked.seg
  have upTo : Seg m.nodes none l.head (before ++ [(a, y)]) (some a) q :=
    seg_append.mpr ⟨p, some a, front, rfl, q, here, rfl, rfl⟩
  have change := changes_insert list upTo back (whole ▸ linked) (whole ▸ length) free x
  rw [← whole, List.append_assoc, List.singleton_append] at change
  refine ⟨_, ?_, change⟩
  have nodup := nodup_addrs_middle.mp linked.nodup
  have last := back.at_last nodup.1.2
  cases q with
  | none =>
    have tail : l.tail = some a := last.mp rfl
    simp [llAddAfter, llCreateNode, free, setList, setNode, hl, tail, Heap.insertBetween, here,
      Function.update_of_ne (free.ne here), adjust_update_comm (free.some_ne here),
      adjust_update_self]
  | some b =>
    have tail : ¬ some a = l.tail := fun same => Option.some_ne_none b (last.mpr same.symm)
    have other : some b ≠ some a := fun same =>
      nodup.1.2 (Option.some.inj same ▸ back.first_mem)
    obtain ⟨n, here'⟩ := back.exists_node back.first_mem
    simp [llAddAfter, llCreateNode, free, setList, setNode, hl, tail, Heap.insertBetween, here,
      here', Function.update_of_ne (free.ne here), Function.update_of_ne (free.ne here'),
      adjust_update_comm (free.some_ne here), adjust_update_comm (free.some_ne here'),
      adjust_of_ne other, adjust_update_self]

/-- `ll_remove` takes the node out and returns its object. -/
theorem llRemove_spec {a y : Nat} (holds : m.Holds list (before ++ (a, y) :: after)) :
    ∃ m', m.llRemove (some list) (some a) = some (m', some y) ∧
      Changes m m' list (before ++ (a, y) :: after) (before ++ after) := by
  obtain ⟨l, hl, linked, length⟩ := holds
  obtain ⟨p, f, front, rfl, q, here, back⟩ := seg_append.mp linked.seg
  have nodup := nodup_addrs_middle.mp linked.nodup
  have last := back.at_last nodup.1.2
  have first := front.at_first nodup.1.1
  have ⟨apart, apart'⟩ := neighbours_apart front back nodup.2
  refine ⟨_, ?_, changes_remove list front back linked.nodup length⟩
  -- the node is the head where nothing is before it, and the tail where nothing is behind it
  cases p with
  | none =>
    have head : l.head = some a := first.mp rfl
    cases q with
    | none =>
      have tail : l.tail = some a := last.mp rfl
      simp [llRemove, setList, hl, here, head, tail, Heap.removeBetween]
    | some c =>
      have tail : ¬ some a = l.tail := fun same => Option.some_ne_none c (last.mpr same.symm)
      obtain ⟨n, behind⟩ := back.exists_node back.first_mem
      simp [llRemove, setList, setNode, hl, here, head, tail, behind, Heap.removeBetween]
  | some b =>
    have head : ¬ some a = l.head := fun same => Option.some_ne_none b (first.mpr same.symm)
    obtain ⟨n, ahead⟩ := front.exists_node front.last_mem
    have other : some b ≠ some a := fun same =>
      nodup.1.1 (Option.some.inj same ▸ front.last_mem)
    cases q with
    | none =>
      have tail : l.tail = some a := last.mp rfl
      simp [llRemove, setList, setNode, hl, here, head, tail, ahead, Heap.removeBetween,
        adjust_of_ne other]
    | some c =>
      have tail : ¬ some a = l.tail := fun same => Option.some_ne_none c (last.mpr same.symm)
      obtain ⟨n', behind⟩ := back.exists_node back.first_mem
      simp [llRemove, setList, setNode, hl, here, head, tail, ahead, behind, Heap.removeBetween,
        adjust_of_ne other, adjust_of_ne (apart' _ back.first_mem)]

/-- The loop of `ll_destroy` frees the nodes of the list and no others. -/
theorem freeLoop_eq {ns : List (Nat × Nat)} (seg : Seg m.nodes p q ns l.tail none)
    (nodup : (addrs ns).Nodup) {fuel : Nat} (enough : ns.length < fuel) :
    freeLoop fuel q m =
      some { m with nodes := fun a => if a ∈ addrs ns then none else m.nodes a } := by
  induction ns generalizing m p q fuel with
  | nil =>
    obtain ⟨fuel, rfl⟩ := Nat.exists_eq_succ_of_ne_zero (Nat.ne_of_gt enough)
    rw [seg.2, freeLoop]
    simp
  | cons n ns ih =>
    obtain ⟨fuel, rfl⟩ := Nat.exists_eq_succ_of_ne_zero (Nat.ne_of_gt (Nat.zero_lt_of_lt enough))
    obtain ⟨rfl, next, here, rest⟩ := seg
    rw [addrs_cons, List.nodup_cons] at nodup
    have later := ih (m := { m with nodes := Function.update m.nodes n.1 none })
      ((seg_update nodup.1 none).mpr rest) nodup.2 (Nat.lt_of_succ_lt_succ enough)
    rw [freeLoop, here, Option.bind_eq_bind, Option.bind_some, later]
    congr 2
    funext a
    by_cases same : a = n.1
    · subst same
      simp
    · simp [same]

/-- `ll_find` returns the first node that holds the object. -/
theorem findLoop_eq {ns : List (Nat × Nat)} (seg : Seg m.nodes p q ns l.tail none) (object : Nat)
    {fuel : Nat} (enough : ns.length < fuel) :
    m.findLoop object fuel q = some ((ns.find? (·.2 = object)).map Prod.fst) := by
  induction ns generalizing p q fuel with
  | nil =>
    obtain ⟨fuel, rfl⟩ := Nat.exists_eq_succ_of_ne_zero (Nat.ne_of_gt enough)
    rw [seg.2, findLoop]
    rfl
  | cons n ns ih =>
    obtain ⟨fuel, rfl⟩ := Nat.exists_eq_succ_of_ne_zero (Nat.ne_of_gt (Nat.zero_lt_of_lt enough))
    obtain ⟨rfl, next, here, rest⟩ := seg
    have later := ih rest (Nat.lt_of_succ_lt_succ enough)
    by_cases found : n.2 = object
    · simp [findLoop, here, found]
    · simp [findLoop, here, found, later]

end

/-- What following the pointers of a list shows. -/
structure WellFormed (m : ListMemory) (l : LinkedList) (ns : List (Nat × Nat)) : Prop where
  forward : Follows Node.next m.nodes l.head (addrs ns)
  backward : Follows Node.prev m.nodes l.tail (addrs ns).reverse
  distinct : (addrs ns).Nodup
  head_eq : l.head = (addrs ns).head?
  tail_eq : l.tail = (addrs ns).getLast?
  objects : ∀ n ∈ ns, (m.nodes n.1).map Node.object = some n.2
  length_eq : l.length.toNat = ns.length % UInt32.size

theorem Holds.wellFormed {m : ListMemory} {list : Nat} {ns : List (Nat × Nat)}
    (h : m.Holds list ns) : ∃ l, m.lists list = some l ∧ m.WellFormed l ns := by
  obtain ⟨l, hl, ⟨seg, nodup⟩, length⟩ := h
  obtain ⟨head, tail⟩ := seg.ends
  rw [Option.or_none] at head tail
  refine ⟨l, hl, seg.forward, seg.backward, nodup, head, tail, fun n mem => ?_, ?_⟩
  · obtain ⟨next, prev, here⟩ := seg.allocated mem
    rw [here, Option.map_some]
  · rw [length, UInt32.toNat_ofNat', UInt32.size]

/-- What `ll_front`, `ll_back` and `ll_length` return. -/
theorem Holds.accessors {m : ListMemory} {list : Nat} {ns : List (Nat × Nat)}
    (h : m.Holds list ns) :
    m.llFront list = some (addrs ns).head? ∧ m.llBack list = some (addrs ns).getLast? ∧
      m.llLength list = some (UInt32.ofNat ns.length) := by
  obtain ⟨l, hl, ⟨seg, -⟩, length⟩ := h
  obtain ⟨head, tail⟩ := seg.ends
  rw [Option.or_none] at head tail
  simp [llFront, llBack, llLength, hl, head, tail, length]

end ListMemory

/-! ## Operations -/

/-- A call, with the address `calloc` returns. -/
inductive ListOp where
  | create (fresh : Nat)
  | add (list object : Ptr) (fresh : Nat)
  | addFront (list object : Ptr) (fresh : Nat)
  | addAfter (list node object : Ptr) (fresh : Nat)
  | remove (list node : Ptr)
  deriving DecidableEq, Repr

/-- What a call does and returns. -/
def ListMemory.step (m : ListMemory) : ListOp → Option (ListMemory × Ptr)
  | .create fresh => m.llCreate fresh
  | .add list object fresh => m.llAdd list object fresh
  | .addFront list object fresh => m.llAddFront list object fresh
  | .addAfter list node object fresh => m.llAddAfter list node object fresh
  | .remove list node => m.llRemove list node

/-- The calls, each with its result, lead from one memory to another. -/
abbrev ListMemory.Calls (m : ListMemory) (calls : List (ListOp × Ptr)) (m' : ListMemory) : Prop :=
  Run (fun m call m' => m.step call.1 = some (m', call.2)) m calls m'

/-- Of every list that is allocated the nodes from front to back, each with
its object. -/
abbrev Sequences : Type := Nat → Option (List (Nat × Nat))

namespace Sequences

/-- No lists. -/
def empty : Sequences := fun _ => none

/-- No list and no node has this address. -/
def Free (s : Sequences) (a : Nat) : Prop :=
  s a = none ∧ ∀ list ns, s list = some ns → a ∉ addrs ns

/-- What a call that is allowed does to the sequences, and its result. -/
inductive Step (s : Sequences) : ListOp × Ptr → Sequences → Prop where
  | create {a : Nat} (free : s.Free a) :
      Step s (.create a, some a) (Function.update s a (some []))
  | add {list x a : Nat} {ns : List (Nat × Nat)} (h : s list = some ns) (free : s.Free a) :
      Step s (.add (some list) (some x) a, some a)
        (Function.update s list (some (ns ++ [(a, x)])))
  | addFront {list x a : Nat} {ns : List (Nat × Nat)} (h : s list = some ns) (free : s.Free a) :
      Step s (.addFront (some list) (some x) a, some a)
        (Function.update s list (some ((a, x) :: ns)))
  | addAfter {list node x y a : Nat} {before after : List (Nat × Nat)}
      (h : s list = some (before ++ (node, y) :: after)) (free : s.Free a) :
      Step s (.addAfter (some list) (some node) (some x) a, some a)
        (Function.update s list (some (before ++ (node, y) :: (a, x) :: after)))
  | remove {list node x : Nat} {before after : List (Nat × Nat)}
      (h : s list = some (before ++ (node, x) :: after)) :
      Step s (.remove (some list) (some node), some x)
        (Function.update s list (some (before ++ after)))
  | addNull {list object : Ptr} (a : Nat) (h : list = none ∨ object = none) :
      Step s (.add list object a, none) s
  | addFrontNull {list object : Ptr} (a : Nat) (h : list = none ∨ object = none) :
      Step s (.addFront list object a, none) s
  | addAfterNull {list node object : Ptr} (a : Nat)
      (h : list = none ∨ node = none ∨ object = none) :
      Step s (.addAfter list node object a, none) s
  | removeNull {list node : Ptr} (h : list = none ∨ node = none) :
      Step s (.remove list node, none) s

/-- What stands at an address after another list was stored. -/
theorem of_update {s : Sequences} {a other : Nat} {ns ms : List (Nat × Nat)}
    (h : Function.update s a (some ns) other = some ms) :
    other = a ∧ ms = ns ∨ other ≠ a ∧ s other = some ms := by
  by_cases same : other = a
  · subst same
    rw [Function.update_self] at h
    exact .inl ⟨rfl, (Option.some.inj h).symm⟩
  · rw [Function.update_of_ne same] at h
    exact .inr ⟨same, h⟩

/-- One list alone. -/
def single (list : Nat) (ns : List (Nat × Nat)) : Sequences := Function.update empty list (some ns)

section

variable {list a : Nat} {ns : List (Nat × Nat)}

theorem single_free (ne : a ≠ list) (apart : a ∉ addrs ns) : (single list ns).Free a := by
  constructor
  · exact Function.update_of_ne ne _ _
  · intro other ms h
    obtain ⟨-, rfl⟩ | ⟨-, none⟩ := of_update h
    · exact apart
    · cases none

/-- A call that changes it. -/
theorem Step.single {call : ListOp × Ptr} {ns' : List (Nat × Nat)}
    (h : Step (single list ns) call (Function.update (Sequences.single list ns) list (some ns'))) :
    Step (Sequences.single list ns) call (Sequences.single list ns') := by
  rwa [Sequences.single, Function.update_idem] at h

end

end Sequences

/-! ## All lists -/

/-- The memory holds these sequences and no other lists and nodes. -/
structure ListMemory.Represents (m : ListMemory) (s : Sequences) : Prop where
  holds : ∀ list ns, s list = some ns → m.Holds list ns
  lists : ∀ list, s list = none → m.lists list = none
  apart : ∀ list list' ns ns', list ≠ list' → s list = some ns → s list' = some ns' →
    ∀ a ∈ addrs ns, a ∉ addrs ns'
  owned : ∀ a, (∀ list ns, s list = some ns → a ∉ addrs ns) → m.nodes a = none

namespace ListMemory

theorem represents_empty : empty.Represents .empty where
  holds _ _ h := nomatch h
  lists _ _ := rfl
  apart _ _ _ _ _ h := nomatch h
  owned _ _ := rfl

section

variable {m m' : ListMemory} {s : Sequences} {list : Nat} {ns ns' : List (Nat × Nat)}

theorem Represents.free (h : m.Represents s) {a : Nat} (free : s.Free a) : m.Free a :=
  ⟨h.owned a free.2, h.lists a free.1⟩

/-- One list has changed, and its new nodes were free. -/
theorem Represents.change (h : m.Represents s) (hs : s list = some ns)
    (change : Changes m m' list ns ns') (fresh : ∀ a ∈ addrs ns', a ∈ addrs ns ∨ s.Free a) :
    m'.Represents (Function.update s list (some ns')) := by
  have elsewhere : ∀ other ms, other ≠ list → s other = some ms →
      (∀ a ∈ addrs ms, a ∉ addrs ns ∧ a ∉ addrs ns') := by
    intro other ms ne hms a mem
    have old := h.apart other list ms ns ne hms hs a mem
    exact ⟨old, fun new => (fresh a new).elim old fun free => free.2 other ms hms mem⟩
  constructor
  · intro other ms hms
    obtain ⟨rfl, rfl⟩ | ⟨ne, hms⟩ := Sequences.of_update hms
    · exact change.holds
    · obtain ⟨l, hl, ⟨seg, nodup⟩, length⟩ := h.holds other ms hms
      refine ⟨l, (change.lists other ne).trans hl, ⟨?_, nodup⟩, length⟩
      refine (seg_congr fun a mem => ?_).mpr seg
      obtain ⟨old, new⟩ := elsewhere other ms ne hms a mem
      exact change.kept a old new
  · intro other hother
    have ne : other ≠ list := by
      rintro rfl
      rw [Function.update_self] at hother
      cases hother
    rw [Function.update_of_ne ne] at hother
    exact (change.lists other ne).trans (h.lists other hother)
  · intro one two ms ms' ne hms hms' a mem mem'
    obtain ⟨rfl, rfl⟩ | ⟨ne₁, old⟩ := Sequences.of_update hms
    · obtain ⟨rfl, rfl⟩ | ⟨ne₂, old'⟩ := Sequences.of_update hms'
      · exact ne rfl
      · exact (elsewhere two ms' ne₂ old' a mem').2 mem
    · obtain ⟨rfl, rfl⟩ | ⟨ne₂, old'⟩ := Sequences.of_update hms'
      · exact (elsewhere one ms ne₁ old a mem).2 mem'
      · exact h.apart one two ms ms' ne old old' a mem mem'
  · intro a none
    have new : a ∉ addrs ns' := none list ns' (Function.update_self ..)
    by_cases old : a ∈ addrs ns
    · exact change.freed a old new
    · rw [change.kept a old new]
      refine h.owned a fun other ms hms => ?_
      by_cases same : other = list
      · subst same
        rw [hs] at hms
        exact Option.some.inj hms ▸ old
      · exact none other ms (by rw [Function.update_of_ne same, hms])

/-- A new list is empty. -/
theorem Represents.create (h : m.Represents s) {a : Nat} (free : s.Free a) :
    ∃ m', m.llCreate a = some (m', some a) ∧ m'.Represents (Function.update s a (some [])) := by
  refine ⟨_, if_pos (h.free free), ?_, ?_, ?_, ?_⟩
  · intro other ms hms
    obtain ⟨rfl, rfl⟩ | ⟨ne, old⟩ := Sequences.of_update hms
    · exact ⟨_, Function.update_self .., ⟨seg_nil .., List.nodup_nil⟩, rfl⟩
    · obtain ⟨l, hl, linked⟩ := h.holds other ms old
      exact ⟨l, (Function.update_of_ne ne _ _).trans hl, linked⟩
  · intro other hother
    have ne : other ≠ a := by
      rintro rfl
      rw [Function.update_self] at hother
      cases hother
    rw [Function.update_of_ne ne] at hother
    exact (Function.update_of_ne ne _ _).trans (h.lists other hother)
  · intro one two ms ms' ne hms hms' b mem mem'
    obtain ⟨rfl, rfl⟩ | ⟨-, old⟩ := Sequences.of_update hms
    · cases mem
    · obtain ⟨rfl, rfl⟩ | ⟨-, old'⟩ := Sequences.of_update hms'
      · cases mem'
      · exact h.apart one two ms ms' ne old old' b mem mem'
  · intro b none
    refine h.owned b fun other ms hms => none other ms ?_
    have ne : other ≠ a := by
      rintro rfl
      rw [free.1] at hms
      cases hms
    rw [Function.update_of_ne ne, hms]

/-- `ll_destroy` frees a list with its nodes. -/
theorem Represents.destroy (h : m.Represents s) (hs : s list = some ns) {fuel : Nat}
    (enough : ns.length < fuel) :
    ∃ m', m.llDestroy fuel (some list) = some m' ∧
      m'.Represents (Function.update s list none) := by
  obtain ⟨l, hl, ⟨seg, nodup⟩, -⟩ := h.holds list ns hs
  have found : ∀ {other ms}, Function.update s list none other = some ms →
      other ≠ list ∧ s other = some ms := by
    intro other ms hms
    have ne : other ≠ list := by
      rintro rfl
      rw [Function.update_self] at hms
      cases hms
    rw [Function.update_of_ne ne] at hms
    exact ⟨ne, hms⟩
  have run : m.llDestroy fuel (some list) = some
      { nodes := fun a => if a ∈ addrs ns then none else m.nodes a,
        lists := Function.update m.lists list none } := by
    simp [llDestroy, hl, freeLoop_eq seg nodup enough]
  refine ⟨_, run, ?_, ?_, ?_, ?_⟩
  · intro other ms hms
    obtain ⟨ne, old⟩ := found hms
    obtain ⟨l', hl', ⟨seg', nodup'⟩, length⟩ := h.holds other ms old
    refine ⟨l', (Function.update_of_ne ne _ _).trans hl', ⟨?_, nodup'⟩, length⟩
    exact (seg_congr fun a mem => if_neg (h.apart other list ms ns ne old hs a mem)).mpr seg'
  · intro other hother
    by_cases same : other = list
    · subst same
      exact Function.update_self ..
    · rw [Function.update_of_ne same] at hother
      exact (Function.update_of_ne same _ _).trans (h.lists other hother)
  · intro one two ms ms' ne hms hms' a mem
    exact h.apart one two ms ms' ne (found hms).2 (found hms').2 a mem
  · intro a none
    show (if a ∈ addrs ns then Option.none else m.nodes a) = Option.none
    by_cases mem : a ∈ addrs ns
    · exact if_pos mem
    · rw [if_neg mem]
      refine h.owned a fun other ms hms => ?_
      by_cases same : other = list
      · subst same
        rw [hs] at hms
        exact Option.some.inj hms ▸ mem
      · exact none other ms (by rw [Function.update_of_ne same, hms])

/-- Every call does to the lists what it should, and returns what it should. -/
theorem Represents.step (h : m.Represents s) {call : ListOp × Ptr} {t : Sequences}
    (step : Sequences.Step s call t) :
    ∃ m', m.step call.1 = some (m', call.2) ∧ m'.Represents t := by
  cases step with
  | create free => exact h.create free
  | @add list x a ns hs free =>
    obtain ⟨m', run, change⟩ := llAdd_spec (h.holds list ns hs) (h.free free) x
    refine ⟨m', run, h.change hs change fun b mem => ?_⟩
    rw [addrs_append, List.mem_append] at mem
    rcases mem with old | new
    · exact .inl old
    · obtain rfl : b = a := List.mem_singleton.mp new
      exact .inr free
  | @addFront list x a ns hs free =>
    obtain ⟨m', run, change⟩ := llAddFront_spec (h.holds list ns hs) (h.free free) x
    refine ⟨m', run, h.change hs change fun b mem => ?_⟩
    rcases List.mem_cons.mp mem with rfl | old
    · exact .inr free
    · exact .inl old
  | @addAfter list node x y a before after hs free =>
    obtain ⟨m', run, change⟩ := llAddAfter_spec (h.holds list _ hs) (h.free free) x
    refine ⟨m', run, h.change hs change fun b mem => ?_⟩
    simp only [addrs_append, addrs_cons, List.mem_append, List.mem_cons] at mem ⊢
    rcases mem with old | old | rfl | old
    · exact .inl (.inl old)
    · exact .inl (.inr (.inl old))
    · exact .inr free
    · exact .inl (.inr (.inr old))
  | @remove list node x before after hs =>
    obtain ⟨m', run, change⟩ := llRemove_spec (h.holds list _ hs)
    refine ⟨m', run, h.change hs change fun b mem => .inl ?_⟩
    simp only [addrs_append, addrs_cons, List.mem_append, List.mem_cons] at mem ⊢
    exact mem.imp_right .inr
  | addNull a null => rcases null with rfl | rfl <;> exact ⟨m, by simp [ListMemory.step, llAdd], h⟩
  | addFrontNull a null =>
    rcases null with rfl | rfl <;> exact ⟨m, by simp [ListMemory.step, llAddFront], h⟩
  | addAfterNull a null =>
    rcases null with rfl | rfl | rfl <;> exact ⟨m, by simp [ListMemory.step, llAddAfter], h⟩
  | removeNull null =>
    rcases null with rfl | rfl <;> exact ⟨m, by simp [ListMemory.step, llRemove], h⟩

/-- Every sequence of calls takes the memory along with the sequences. -/
theorem run_represents {calls : List (ListOp × Ptr)} (run : Run Sequences.Step .empty calls s) :
    ∃ m, empty.Calls calls m ∧ m.Represents s := by
  refine Run.simulate Represents ?_ represents_empty run
  intro m t call u related step
  exact related.step step

end

end ListMemory

/-- The first node that holds the object. -/
def FirstHolding (ns : List (Nat × Nat)) (object : Ptr) : Ptr → Prop
  | none => ∀ n ∈ ns, some n.2 ≠ object
  | some a => ∃ x before after, object = some x ∧ ns = before ++ (a, x) :: after ∧
      ∀ n ∈ before, n.2 ≠ x

/-- What can be seen of the lists is what the sequences say. -/
structure ListMemory.Shows (m : ListMemory) (s : Sequences) : Prop where
  lists : ∀ list, (m.lists list).isSome = (s list).isSome
  wellFormed : ∀ list ns, s list = some ns → ∃ l, m.lists list = some l ∧ m.WellFormed l ns
  finds : ∀ list ns object fuel, s list = some ns → ns.length < fuel →
    ∃ found, m.llFind fuel (some list) object = some found ∧ FirstHolding ns object found

theorem ListMemory.Represents.shows {m : ListMemory} {s : Sequences} (h : m.Represents s) :
    m.Shows s where
  lists list := by
    cases hs : s list with
    | none =>
      rw [h.lists list hs]
      rfl
    | some ns =>
      obtain ⟨l, hl, -⟩ := h.holds list ns hs
      rw [hl]
      rfl
  wellFormed list ns hs := (h.holds list ns hs).wellFormed
  finds list ns object fuel hs enough := by
    cases object with
    | none => exact ⟨none, rfl, fun _ _ => Option.some_ne_none _⟩
    | some x =>
      obtain ⟨l, hl, ⟨seg, -⟩, -⟩ := h.holds list ns hs
      have run : m.llFind fuel (some list) (some x) =
          some ((ns.find? (·.2 = x)).map Prod.fst) := by
        rw [ListMemory.llFind, hl]
        exact ListMemory.findLoop_eq seg x enough
      refine ⟨_, run, ?_⟩
      cases found : ns.find? (·.2 = x) with
      | none =>
        intro n mem same
        have other := List.find?_eq_none.mp found n mem
        simp [Option.some.inj same] at other
      | some n =>
        obtain ⟨holds, before, after, eq, earlier⟩ := List.find?_eq_some_iff_append.mp found
        have object : n.2 = x := by simpa using holds
        refine ⟨x, before, after, rfl, by rw [eq, ← object], fun n mem => ?_⟩
        simpa using earlier n mem

/-- In every sequence of calls on allocated lists and on nodes of them, each
call returns what it should, and afterwards the lists are the sequences: what
the calls appended, put in front, inserted and took out, in this order. The
length counts modulo 2^32. -/
theorem linked_lists_refine {calls : List (ListOp × Ptr)} {s : Sequences}
    (run : Run Sequences.Step .empty calls s) :
    ∃ m, ListMemory.empty.Calls calls m ∧ m.Shows s := by
  obtain ⟨m, done, represents⟩ := ListMemory.run_represents run
  exact ⟨m, done, represents.shows⟩

open Sequences in
/-- Two objects, one of them twice, in the middle, at the end and at the front;
the one in the middle is taken out again. -/
theorem linked_lists_refine_six :
    ∃ m, ListMemory.empty.Calls
        [(.create 1, some 1), (.add (some 1) (some 70) 2, some 2),
          (.addAfter (some 1) (some 2) (some 71) 3, some 3),
          (.addFront (some 1) (some 71) 4, some 4), (.remove (some 1) (some 2), some 70),
          (.add (some 1) none 5, none)] m ∧
      m.Shows (single 1 [(4, 71), (3, 71)]) := by
  have created : Step .empty (.create 1, some 1) (single 1 []) :=
    .create ⟨rfl, fun _ _ h => nomatch h⟩
  have added : Step (single 1 []) (.add (some 1) (some 70) 2, some 2) (single 1 [(2, 70)]) :=
    .single (.add (Function.update_self ..) (single_free (by decide) (by decide)))
  have only : single 1 [(2, 70)] 1 = some ([] ++ (2, 70) :: []) := Function.update_self ..
  have behind : Step (single 1 [(2, 70)]) (.addAfter (some 1) (some 2) (some 71) 3, some 3)
      (single 1 [(2, 70), (3, 71)]) :=
    .single (.addAfter only (single_free (by decide) (by decide)))
  have front : Step (single 1 [(2, 70), (3, 71)]) (.addFront (some 1) (some 71) 4, some 4)
      (single 1 [(4, 71), (2, 70), (3, 71)]) :=
    .single (.addFront (Function.update_self ..) (single_free (by decide) (by decide)))
  have middle : single 1 [(4, 71), (2, 70), (3, 71)] 1 =
      some ([(4, 71)] ++ (2, 70) :: [(3, 71)]) := Function.update_self ..
  have removed : Step (single 1 [(4, 71), (2, 70), (3, 71)]) (.remove (some 1) (some 2), some 70)
      (single 1 [(4, 71), (3, 71)]) :=
    .single (.remove middle)
  have refused : Step (single 1 [(4, 71), (3, 71)]) (.add (some 1) none 5, none)
      (single 1 [(4, 71), (3, 71)]) :=
    .addNull 5 (.inr rfl)
  exact linked_lists_refine
    (.snoc (.snoc (.snoc (.snoc (.snoc (.snoc .nil created) added) behind) front) removed) refused)

/-! ## The length -/

/-- A list is created, and one object is added to it `n` times. -/
def fill (n : Nat) : List (ListOp × Ptr) :=
  (.create 1, some 1) ::
    (List.range n).map fun i => (.add (some 1) (some 1) (i + 2), some (i + 2))

/-- The nodes that makes. -/
def filled (n : Nat) : List (Nat × Nat) := (List.range n).map fun i => (i + 2, 1)

theorem run_fill (n : Nat) :
    Run Sequences.Step .empty (fill n) (Sequences.single 1 (filled n)) := by
  induction n with
  | zero => exact .single (.create ⟨rfl, fun _ _ h => nomatch h⟩)
  | succ n ih =>
    have calls : fill (n + 1) =
        fill n ++ [(.add (some 1) (some 1) (n + 2), some (n + 2))] := by
      rw [fill, List.range_succ, List.map_append]
      rfl
    have nodes : filled (n + 1) = filled n ++ [(n + 2, 1)] := by
      rw [filled, List.range_succ, List.map_append]
      rfl
    have fresh : n + 2 ∉ addrs (filled n) := by
      simp [addrs, filled]
    rw [calls, nodes]
    exact .snoc ih (.single (.add (Function.update_self ..)
      (Sequences.single_free (by omega) fresh)))

/-- After 2^32 calls of `ll_add` the length is 0. -/
theorem length_is_not_the_number_of_nodes :
    ¬ ∀ (calls : List (ListOp × Ptr)) (s : Sequences) (m : ListMemory),
      Run Sequences.Step .empty calls s → ListMemory.empty.Calls calls m →
      ∀ list ns l, s list = some ns → m.lists list = some l → l.length.toNat = ns.length := by
  intro counts
  obtain ⟨m, done, represents⟩ := ListMemory.run_represents (run_fill (2 ^ 32))
  have there : Sequences.single 1 (filled (2 ^ 32)) 1 = some (filled (2 ^ 32)) :=
    Function.update_self ..
  obtain ⟨l, hl, wellFormed⟩ := (represents.holds 1 _ there).wellFormed
  have length := counts _ _ m (run_fill (2 ^ 32)) done 1 _ l there hl
  have nodes : (filled (2 ^ 32)).length = 2 ^ 32 := by
    rw [filled, List.length_map, List.length_range]
  rw [wellFormed.length_eq, nodes] at length
  exact absurd length (by decide)

end NetLabs.Ctcp
