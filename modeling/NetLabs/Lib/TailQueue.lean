/-
NetLabs.Lib.TailQueue — a linked queue with a pointer to its last link.

The queue is what C code keeps in a head pointer and a pointer to a pointer:
nodes at addresses, each linked to the next, and `tail`, the link where the
next node goes. That link is the head itself or lies in a node, and nothing
but the code keeps it at the end: `append` writes where `tail` says, cuts off
what was linked there, and fails if the node is no longer in the queue.

`WellFormed` says that `tail` is the last link. Under it `append` appends.
-/
import Mathlib.Data.List.Nodup

namespace NetLabs.Lib

universe u

/-- A link: the head pointer, or the `next` pointer of the node at an
address. -/
inductive TailQueue.Link where
  | head
  | next (addr : Nat)
  deriving DecidableEq, Repr

/-- The nodes in the order of their links, with their addresses, and the
link the tail pointer addresses. -/
structure TailQueue (α : Type u) where
  nodes : List (Nat × α)
  tail : TailQueue.Link
  deriving DecidableEq, Repr

namespace TailQueue

variable {α : Type u}

/-! ## Operations -/

def empty : TailQueue α := ⟨[], .head⟩

/-- The addresses in use. -/
def addrs (q : TailQueue α) : List Nat := q.nodes.map Prod.fst

/-- The nodes up to the one at this address. -/
def upTo (addr : Nat) : List (Nat × α) → Option (List (Nat × α))
  | [] => none
  | n :: ns => if n.1 = addr then some [n] else (upTo addr ns).map (n :: ·)

/-- `*tail = node; tail = &node->next`, for a new node without successor. -/
def append (q : TailQueue α) (addr : Nat) (x : α) : Option (TailQueue α) :=
  match q.tail with
  | .head => some ⟨[(addr, x)], .next addr⟩
  | .next last => (upTo last q.nodes).map fun ns => ⟨ns ++ [(addr, x)], .next addr⟩

/-- `head = head->next; if (!head) tail = &head`. -/
def advance (q : TailQueue α) : TailQueue α :=
  ⟨q.nodes.tail, if q.nodes.tail = [] then .head else q.tail⟩

/-- Another value in the first node. -/
def setFront (q : TailQueue α) (x : α) : TailQueue α :=
  ⟨q.nodes.head?.toList.map (fun n => (n.1, x)) ++ q.nodes.tail, q.tail⟩

theorem nodes_advance (q : TailQueue α) : q.advance.nodes = q.nodes.tail := rfl

theorem nodes_setFront {q : TailQueue α} {n : Nat × α} {ns : List (Nat × α)} (h : q.nodes = n :: ns)
    (x : α) : (q.setFront x).nodes = (n.1, x) :: ns := by
  simp [setFront, h]

/-! ## The tail pointer -/

/-- The link behind the last node. -/
def lastLink (ns : List (Nat × α)) : Link := ns.getLast?.elim .head fun n => .next n.1

/-- The tail pointer addresses the last link, and addresses differ. -/
structure WellFormed (q : TailQueue α) : Prop where
  tail_eq : q.tail = lastLink q.nodes
  nodup : q.addrs.Nodup

theorem wellFormed_empty : WellFormed (empty : TailQueue α) := ⟨rfl, List.nodup_nil⟩

@[simp] theorem lastLink_append (ns : List (Nat × α)) (n : Nat × α) :
    lastLink (ns ++ [n]) = .next n.1 := by
  simp [lastLink]

/-- The nodes up to the last one are all of them. -/
theorem upTo_last {ns : List (Nat × α)} {n : Nat × α} (fresh : n.1 ∉ ns.map Prod.fst) :
    upTo n.1 (ns ++ [n]) = some (ns ++ [n]) := by
  induction ns with
  | nil => simp [upTo]
  | cons m ms ih =>
    simp only [List.map_cons, List.mem_cons, not_or] at fresh
    rw [List.cons_append, upTo, if_neg (Ne.symm fresh.1), ih fresh.2]
    rfl

/-- `append` puts the node at the end. -/
theorem append_spec {q : TailQueue α} (h : q.WellFormed) {addr : Nat} (x : α)
    (fresh : addr ∉ q.addrs) :
    ∃ q', q.append addr x = some q' ∧ q'.nodes = q.nodes ++ [(addr, x)] ∧ q'.WellFormed := by
  have grown : (q.nodes ++ [(addr, x)]).map Prod.fst = q.addrs ++ [addr] := by
    simp [addrs]
  have nodup : ((q.nodes ++ [(addr, x)]).map Prod.fst).Nodup := by
    rw [grown]
    rw [← List.concat_eq_append]
    exact h.nodup.concat fresh
  refine ⟨⟨q.nodes ++ [(addr, x)], .next addr⟩, ?_, rfl, ⟨by simp, nodup⟩⟩
  obtain ⟨nodes, tail⟩ := q
  obtain rfl : tail = lastLink nodes := h.tail_eq
  rcases List.eq_nil_or_concat nodes with rfl | ⟨ns, n, rfl⟩
  · rfl
  · rw [List.concat_eq_append] at h ⊢
    have distinct : n.1 ∉ ns.map Prod.fst := by
      have hnd : ((ns ++ [n]).map Prod.fst).Nodup := h.nodup
      rw [List.map_append, List.nodup_append] at hnd
      exact fun hmem => hnd.2.2 _ hmem _ (List.mem_singleton_self _) rfl
    rw [append]
    simp only [lastLink_append, upTo_last distinct, Option.map_some]

theorem WellFormed.advance {q : TailQueue α} (h : q.WellFormed) : q.advance.WellFormed := by
  obtain ⟨nodes, tail⟩ := q
  cases nodes with
  | nil => exact ⟨rfl, List.nodup_nil⟩
  | cons n ns =>
    refine ⟨?_, (List.nodup_cons.mp h.nodup).2⟩
    cases ns with
    | nil => rfl
    | cons m ms => exact h.tail_eq.trans (by simp [lastLink, TailQueue.advance])

theorem WellFormed.setFront {q : TailQueue α} (h : q.WellFormed) (x : α) :
    (q.setFront x).WellFormed := by
  obtain ⟨nodes, tail⟩ := q
  cases nodes with
  | nil => exact h
  | cons n ns =>
    refine ⟨?_, h.nodup⟩
    cases ns with
    | nil => exact h.tail_eq
    | cons m ms => exact h.tail_eq.trans (by simp [lastLink, TailQueue.setFront])

end TailQueue

end NetLabs.Lib
