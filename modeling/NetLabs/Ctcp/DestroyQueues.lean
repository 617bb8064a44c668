/-
NetLabs.Ctcp.DestroyQueues — how `ctcp_destroy` in `lab3/ctcp.c` gets rid of
the two send queues.

A loop per queue frees the object of the first node and removes the node, and
`ll_destroy` frees what is left of the list. The loop counts up to the length,
which it reads again before every turn, while every turn shortens the list. So
it stops half way (`drainLoop_spec`), and the objects of the other nodes are
never freed. Nothing is lost exactly if no queue has more than one segment.
-/
import NetLabs.Ctcp.LinkedList
import NetLabs.Ctcp.State

namespace NetLabs.Ctcp

open NetLabs.Lib NetLabs.Lib.DoublyLinked

namespace ListMemory

/-! ## The code -/

/-- `for (; i < ll_length(queue); i++)` of `ctcp_destroy`, for at most `fuel`
turns; `released` are the objects freed so far. -/
def drainLoop (queue : Nat) : Nat → UInt32 → ListMemory → List Nat →
    Option (ListMemory × List Nat)
  | 0, _, _, _ => none
  | fuel + 1, i, m, released => do
      let length ← m.llLength queue
      if i < length then do
        let curr ← m.llFront queue
        let n ← curr.bind m.nodes
        let (m, _) ← m.llRemove (some queue) curr
        drainLoop queue fuel (i + 1) m (released ++ [n.object])
      else some (m, released)

/-- What `ctcp_destroy` did: the memory at the two calls of `ll_destroy` and
at the end, and the objects that were freed. -/
structure Destruction where
  unacknowledged : ListMemory
  outputPending : ListMemory
  memory : ListMemory
  released : List Nat

/-- `ctcp_destroy(state)`, as far as the queues go. -/
def ctcpDestroy (m : ListMemory) (fuel unacknowledgedSegments outputPendingSegments : Nat) :
    Option Destruction := do
  let (m₁, released) ← drainLoop unacknowledgedSegments fuel 0 m []
  let m₂ ← m₁.llDestroy fuel (some unacknowledgedSegments)
  let (m₃, released) ← drainLoop outputPendingSegments fuel 0 m₂ released
  let m₄ ← m₃.llDestroy fuel (some outputPendingSegments)
  some ⟨m₁, m₃, m₄, released⟩

/-! ## One loop -/

/-- The turns of a loop that stands at `i` with `n` nodes left. -/
def turns (i n : Nat) : Nat := (n % 2 ^ 32 - i + 1) / 2

/-- Every turn moves the counter up and the length down. -/
theorem turns_cons {i n : Nat} (more : i < (n + 1) % 2 ^ 32) :
    turns i (n + 1) = turns (i + 1) n + 1 := by
  unfold turns
  omega

theorem turns_done {i n : Nat} (done : ¬ i < n % 2 ^ 32) : turns i n = 0 := by
  unfold turns
  omega

/-- A loop frees the objects of the first nodes and removes these nodes, half
of them all. -/
theorem drainLoop_spec {queue : Nat} {m : ListMemory} {s : Sequences} {ns : List (Nat × Nat)}
    (h : m.Represents s) (hs : s queue = some ns) (i : UInt32) {fuel : Nat}
    (enough : turns i.toNat ns.length < fuel) (released : List Nat) :
    ∃ m', drainLoop queue fuel i m released =
        some (m', released ++ (ns.take (turns i.toNat ns.length)).map Prod.snd) ∧
      m'.Represents
        (Function.update s queue (some (ns.drop (turns i.toNat ns.length)))) := by
  induction fuel generalizing m s ns i released with
  | zero => exact absurd enough (Nat.not_lt_zero _)
  | succ fuel ih =>
    obtain ⟨front, -, length⟩ := (h.holds queue ns hs).accessors
    have test : i < UInt32.ofNat ns.length ↔ i.toNat < ns.length % 2 ^ 32 := by
      rw [UInt32.lt_iff_toNat_lt, UInt32.toNat_ofNat']
    by_cases more : i.toNat < ns.length % 2 ^ 32
    · cases ns with
      | nil => exact absurd more (Nat.not_lt_zero _)
      | cons n ns =>
        obtain ⟨l, hl, ⟨seg, -⟩, -⟩ := h.holds queue _ hs
        obtain ⟨next, prev, here⟩ := seg.allocated List.mem_cons_self
        have first : s queue = some ([] ++ (n.1, n.2) :: ns) := hs
        obtain ⟨m', removed, represents⟩ := h.step (.remove first)
        have next : (i + 1).toNat = i.toNat + 1 := by
          rw [UInt32.toNat_add]
          show (i.toNat + 1) % 2 ^ 32 = _
          omega
        have fewer := turns_cons more
        rw [List.length_cons, fewer] at enough ⊢
        rw [← next] at enough ⊢
        obtain ⟨m'', rest, represents'⟩ := ih represents (Function.update_self ..) (i + 1)
          (Nat.lt_of_succ_lt_succ enough) (released ++ [n.2])
        rw [Function.update_idem] at represents'
        refine ⟨m'', ?_, represents'⟩
        rw [drainLoop, length, Option.bind_eq_bind, Option.bind_some, if_pos (test.mpr more), front]
        simp only [ListMemory.step] at removed
        simpa [here, removed] using rest
    · rw [turns_done more, List.take_zero, List.map_nil, List.append_nil, List.drop_zero]
      refine ⟨m, ?_, ?_⟩
      · rw [drainLoop, length, Option.bind_eq_bind, Option.bind_some, if_neg (mt test.mp more)]
      · rwa [← hs, Function.update_eq_self]

/-! ## Both queues -/

/-- The queues of a connection, each a list of the arrays of its segments. -/
def Queues (m : ListMemory) (unacknowledgedSegments outputPendingSegments : Nat)
    (c : CtcpState) : Prop :=
  unacknowledgedSegments ≠ outputPendingSegments ∧
    ∃ s ns ms, m.Represents s ∧ s unacknowledgedSegments = some ns ∧
      s outputPendingSegments = some ms ∧
      ns.map Prod.snd = c.unacknowledgedSegments.map Buf.addr ∧
      ms.map Prod.snd = c.outputPendingSegments.map Buf.addr

/-- Both queues are empty when `ll_destroy` is called on them, and every
queued array has been freed once. -/
structure Destruction.Complete (d : Destruction)
    (unacknowledgedSegments outputPendingSegments : Nat) (c : CtcpState) : Prop where
  unacknowledged : d.unacknowledged.Holds unacknowledgedSegments []
  outputPending : d.outputPending.Holds outputPendingSegments []
  released : d.released = c.sendQueue.map Buf.addr

section

variable {m : ListMemory} {s : Sequences} {u o fuel : Nat} {ns ms : List (Nat × Nat)}
  {c : CtcpState}

theorem turns_le (n : Nat) : turns 0 n ≤ n := by
  unfold turns
  omega

/-- `ctcp_destroy` frees half of each queue, and both lists. -/
theorem ctcpDestroy_spec (h : m.Represents s) (hu : s u = some ns) (ho : s o = some ms)
    (ne : u ≠ o) (enough : ns.length < fuel) (enough' : ms.length < fuel) :
    ∃ d, m.ctcpDestroy fuel u o = some d ∧
      d.unacknowledged.Holds u (ns.drop (turns 0 ns.length)) ∧
      d.outputPending.Holds o (ms.drop (turns 0 ms.length)) ∧
      d.released = (ns.take (turns 0 ns.length)).map Prod.snd ++
        (ms.take (turns 0 ms.length)).map Prod.snd ∧
      d.memory.Represents (Function.update (Function.update s u none) o none) := by
  have shorter (ns : List (Nat × Nat)) : (ns.drop (turns 0 ns.length)).length ≤ ns.length := by
    rw [List.length_drop]
    exact Nat.sub_le _ _
  obtain ⟨m₁, drained, represents₁⟩ :=
    drainLoop_spec h hu 0 (Nat.lt_of_le_of_lt (turns_le _) enough) []
  obtain ⟨m₂, destroyed, represents₂⟩ :=
    represents₁.destroy (Function.update_self ..) (Nat.lt_of_le_of_lt (shorter ns) enough)
  rw [Function.update_idem] at represents₂
  have there : Function.update s u none o = some ms := by
    rw [Function.update_of_ne ne.symm, ho]
  obtain ⟨m₃, drained', represents₃⟩ :=
    drainLoop_spec represents₂ there 0 (Nat.lt_of_le_of_lt (turns_le _) enough')
      ((ns.take (turns 0 ns.length)).map Prod.snd)
  obtain ⟨m₄, destroyed', represents₄⟩ :=
    represents₃.destroy (Function.update_self ..) (Nat.lt_of_le_of_lt (shorter ms) enough')
  rw [Function.update_idem] at represents₄
  refine ⟨⟨m₁, m₃, m₄, _⟩, ?_, represents₁.holds u _ (Function.update_self ..),
    represents₃.holds o _ (Function.update_self ..), rfl, represents₄⟩
  rw [List.nil_append, UInt32.toNat_zero] at drained
  simp only [ctcpDestroy, Option.bind_eq_bind, drained, destroyed, Option.bind_some, drained',
    destroyed', UInt32.toNat_zero]

/-- An empty queue has no nodes. -/
theorem Holds.eq_nil (h : m.Holds u ns) (empty : m.Holds u []) : ns = [] := by
  have front := h.accessors.1.symm.trans empty.accessors.1
  cases ns with
  | nil => rfl
  | cons n ns => cases Option.some.inj front

/-- A queue is emptied if it has one node or none. -/
theorem drop_turns_eq_nil_iff : ns.drop (turns 0 ns.length) = [] ↔ ns.length ≤ 1 := by
  rw [List.drop_eq_nil_iff, turns]
  omega

/-- `ctcp_destroy` empties both queues and frees every queued array if and only
if neither queue has more than one segment. -/
theorem destroy_drains_iff (queues : m.Queues u o c)
    (enough : c.unacknowledgedSegments.length < fuel)
    (enough' : c.outputPendingSegments.length < fuel) :
    ∃ d, m.ctcpDestroy fuel u o = some d ∧
      (d.Complete u o c ↔
        c.unacknowledgedSegments.length ≤ 1 ∧ c.outputPendingSegments.length ≤ 1) := by
  obtain ⟨ne, s, ns, ms, represents, hu, ho, unacknowledged, outputPending⟩ := queues
  have size : c.unacknowledgedSegments.length = ns.length := by
    simpa using (congrArg List.length unacknowledged).symm
  have size' : c.outputPendingSegments.length = ms.length := by
    simpa using (congrArg List.length outputPending).symm
  rw [size] at enough ⊢
  rw [size'] at enough' ⊢
  obtain ⟨d, run, left, left', released, -⟩ :=
    ctcpDestroy_spec represents hu ho ne enough enough'
  refine ⟨d, run, fun complete => ?_, fun ⟨few, few'⟩ => ?_⟩
  · exact ⟨drop_turns_eq_nil_iff.mp (left.eq_nil complete.unacknowledged),
      drop_turns_eq_nil_iff.mp (left'.eq_nil complete.outputPending)⟩
  · have all := drop_turns_eq_nil_iff.mpr few
    have all' := drop_turns_eq_nil_iff.mpr few'
    rw [all] at left
    rw [all'] at left'
    refine ⟨left, left', ?_⟩
    rw [List.drop_eq_nil_iff] at all all'
    rw [released, List.take_of_length_le all, List.take_of_length_le all', unacknowledged,
      outputPending, CtcpState.sendQueue, List.map_append]

end

/-! ## Two segments -/

/-- Two segments wait for an acknowledgement. -/
def twoSegments : CtcpState :=
  let segment : CtcpSegment :=
    { seqno := 1, ackno := 1, len := 21, flags := thAck, window := 1440, cksum := 0,
      data := [0x61] }
  let buf : Buf :=
    { addr := 70, position := 0, segment, sentAt := 0, sent := 1, retransmissions := 0,
      appLimited := 0, appLimitedHigh := 0 }
  { CtcpState.fresh (.plain .little) with
    unacknowledgedSegments := [buf, { buf with addr := 71, position := 1 }] }

/-- The calls that queue them. -/
def queueTwo : List (ListOp × Ptr) :=
  [(.create 2, some 2), (.create 1, some 1), (.add (some 1) (some 70) 3, some 3),
    (.add (some 1) (some 71) 4, some 4)]

open Sequences in
/-- After these calls there are two lists. -/
theorem run_queueTwo :
    Run Step .empty queueTwo (Function.update (single 2 []) 1 (some [(3, 70), (4, 71)])) := by
  have added (x : Nat) {a : Nat} {ns : List (Nat × Nat)} (other : a ≠ 1 ∧ a ≠ 2)
      (apart : a ∉ addrs ns) :
      Step (Function.update (single 2 []) 1 (some ns)) (.add (some 1) (some x) a, some a)
        (Function.update (single 2 []) 1 (some (ns ++ [(a, x)]))) := by
    have alone : (single 2 []).Free a := single_free other.2 List.not_mem_nil
    have free : Sequences.Free (Function.update (single 2 []) 1 (some ns)) a := by
      refine ⟨(Function.update_of_ne other.1 _ _).trans alone.1, fun list ms h => ?_⟩
      obtain ⟨-, rfl⟩ | ⟨-, old⟩ := of_update h
      · exact apart
      · exact alone.2 list ms old
    have step := Step.add (x := x) (Function.update_self ..) free
    rwa [Function.update_idem] at step
  have created : Step .empty (.create 2, some 2) (single 2 []) :=
    .create ⟨rfl, fun _ _ h => nomatch h⟩
  have created' : Step (single 2 []) (.create 1, some 1)
      (Function.update (single 2 []) 1 (some [])) :=
    .create (single_free (by decide) List.not_mem_nil)
  exact .snoc (.snoc (.snoc (.snoc .nil created) created') (added 70 (by decide) List.not_mem_nil))
    (added 71 (by decide) (by decide))

/-- The calls of `queueTwo` build the queues of `twoSegments`. -/
theorem exists_twoSegments : ∃ m, empty.Calls queueTwo m ∧ m.Queues 1 2 twoSegments := by
  obtain ⟨m, done, represents⟩ := run_represents run_queueTwo
  exact ⟨m, done, by decide, _, [(3, 70), (4, 71)], [], represents, rfl, rfl, rfl, rfl⟩

theorem destroy_drains_iff_twoSegments :
    ∃ m : ListMemory, m.Queues 1 2 twoSegments ∧ ∃ d, m.ctcpDestroy 3 1 2 = some d ∧
      (d.Complete 1 2 twoSegments ↔ twoSegments.unacknowledgedSegments.length ≤ 1 ∧
        twoSegments.outputPendingSegments.length ≤ 1) := by
  obtain ⟨m, -, queues⟩ := exists_twoSegments
  exact ⟨m, queues, destroy_drains_iff queues (by decide) (by decide)⟩

/-- The array of the second segment is never freed. -/
theorem second_segment_is_never_freed :
    ∃ m d, empty.Calls queueTwo m ∧ m.Queues 1 2 twoSegments ∧
      m.ctcpDestroy 3 1 2 = some d ∧ d.released = [70] ∧ ¬ d.Complete 1 2 twoSegments := by
  obtain ⟨m, done, ne, s, ns, ms, represents, hu, ho, addrs, addrs'⟩ := exists_twoSegments
  have values : ns.map Prod.snd = [70, 71] := addrs
  have none : ms = [] := List.map_eq_nil_iff.mp addrs'
  have size : ns.length = 2 := by simpa using congrArg List.length values
  obtain ⟨d, run, left, -, released, -⟩ :=
    ctcpDestroy_spec represents hu ho ne (show ns.length < 3 by omega) (by simp [none])
  rw [size, none, List.map_take, values] at released
  have first : d.released = [70] := released
  refine ⟨m, d, done, ⟨ne, s, ns, ms, represents, hu, ho, addrs, addrs'⟩, run, first, ?_⟩
  intro complete
  have all := complete.released
  rw [first] at all
  exact absurd all (by decide)

end ListMemory

end NetLabs.Ctcp
