/-
NetLabs.Ctcp.ConnectionList — the list of connections in memory, as
`conn_add`, `conn_free` and `delete_all_connections` of
`lab3/ctcp_sys_internal.c` build and change it on a server.

The back link of a connection is the address of the variable that points to
it. For the most recent one `conn_add` takes the address of `conn_list`, its
own variable, and not of `config->connections`. So `conn_free` cannot store
the rest of the list there; it clears `config->connections` instead, and the
connections behind are lost. `deleteAllConnections_spec` says what is left,
`delete_keeps_others_iff` when it is what it should be.

The variable `conn_list` is gone when `conn_free` writes to it. The model
keeps its place apart from everything else, so that the write changes nothing
that is read.
-/
import NetLabs.Ctcp.MainLoop
import NetLabs.Lib.BackLinked

namespace NetLabs.Ctcp

open NetLabs.Lib.BackLinked

/-! ## The memory -/

/-- A connection is its address; the value of its cell is `delete_me`. -/
structure Memory where
  heap : Heap Bool
  /-- `config->connections` -/
  connections : Option Nat
  /-- where the variable `conn_list` of `conn_add` was -/
  connList : Option Nat

namespace Memory

/-- No connections. -/
def init : Memory := ⟨fun _ => none, none, none⟩

/-- `*slot = p` -/
def store (m : Memory) : Slot → Option Nat → Option Memory
  | .outside, p => some { m with connList := p }
  | .next a, p => do
      let heap ← m.heap.modify a fun c => { c with next := p }
      some { m with heap }

/-- `c->prev = prev`, where there is a `c`. -/
def setPrev (m : Memory) (c : Option Nat) (prev : Option Slot) : Option Memory :=
  match c with
  | none => some m
  | some a => do
      let heap ← m.heap.modify a fun c => { c with prev }
      some { m with heap }

/-- `conn_add(conn)` -/
def connAdd (m : Memory) (conn : Nat) : Option Memory :=
  let connList := m.connections
  if some conn ≠ connList then do
    let heap ← m.heap.modify conn fun c => { c with prev := some .outside, next := connList }
    let m ← setPrev { m with heap, connList } connList (some (.next conn))
    some { m with connections := some conn }
  else some { m with connections := some conn }

/-- `calloc` and `conn_add`, as in `tcp_new_connection`. -/
def connect (m : Memory) (conn : Nat) : Option Memory :=
  if m.heap conn = none then
    connAdd { m with heap := Function.update m.heap conn (some ⟨none, none, false⟩) } conn
  else none

/-- `conn_free(conn)`, without the chunks and the pipes of the connection. -/
def connFree (m : Memory) (conn : Nat) : Option Memory := do
  let c ← m.heap conn
  let m ← m.setPrev c.next c.prev
  let c ← m.heap conn
  let m ← match c.prev with
    | none => some m
    | some slot => m.store slot c.next
  let connections := if some conn = m.connections then none else m.connections
  some { m with heap := Function.update m.heap conn none, connections }

/-- The loop of `delete_all_connections`, from `conn` on. -/
def deleteLoop : Nat → Option Nat → Memory → Option Memory
  | 0, _, _ => none
  | _ + 1, none, m => some m
  | fuel + 1, some conn, m => do
      let c ← m.heap conn
      let m ← if c.val then m.connFree conn else some m
      deleteLoop fuel c.next m

/-- `delete_all_connections()`, for at most `fuel` turns. -/
def deleteAllConnections (fuel : Nat) (m : Memory) : Option Memory :=
  deleteLoop fuel m.connections m

/-- `delete_me` of every connection as given. -/
def mark (m : Memory) (deleteMe : Nat → Bool) : Memory :=
  { m with heap := fun a => (m.heap a).map fun c => { c with val := deleteMe a } }

/-- The connections that are reached from `get_connections()`. -/
def Lists (m : Memory) (conns : List Nat) : Prop := Reaches m.heap m.connections conns

/-! ## Taking one connection out -/

section

variable {flag : Nat → Bool} {m : Memory} {p q : Option Nat} {s : Slot}

/-- The rest of a list is hung on another variable. -/
theorem setPrev_spec {after : List Nat} {slot : Slot} (rest : Linked flag m.heap slot q after)
    (nodup : after.Nodup) (s : Slot) :
    ∃ heap, m.setPrev q (some s) = some { m with heap } ∧ Linked flag heap s q after ∧
      ∀ b ∉ after, heap b = m.heap b := by
  obtain ⟨slot', rest⟩ := rest
  cases after with
  | nil =>
    obtain ⟨-, rfl⟩ := rest
    exact ⟨m.heap, rfl, ⟨s, rfl, rfl⟩, fun _ _ => rfl⟩
  | cons n after =>
    have ⟨hq, c, hc, _⟩ := rest
    refine ⟨Function.update m.heap n (some { c with prev := some s }), ?_,
      ⟨slot', seg_setPrev rest hc (List.nodup_cons.mp nodup).1 s⟩, ?_⟩
    · rw [hq, setPrev, modify_eq hc]
      rfl
    · intro b hb
      exact Function.update_of_ne (ne_of_mem_of_not_mem List.mem_cons_self hb).symm _ _

/-- A pointer is stored where a segment ends. -/
theorem store_spec {before : List Nat} (kept : Seg flag m.heap .outside p before s q)
    (nodup : before.Nodup) (r : Option Nat) :
    ∃ m' p', m.store s r = some m' ∧ Seg flag m'.heap .outside p' before s r ∧
      (before ≠ [] → p' = p) ∧ (∀ b ∉ before, m'.heap b = m.heap b) ∧
      m'.connections = m.connections := by
  rcases List.eq_nil_or_concat' before with rfl | ⟨front, b, rfl⟩
  · obtain ⟨rfl, -⟩ := kept
    exact ⟨{ m with connList := r }, r, rfl, ⟨rfl, rfl⟩, fun h => absurd rfl h,
      fun _ _ => rfl, rfl⟩
  · obtain ⟨-, -, -, -, c, hc, -⟩ := seg_append.mp kept
    obtain ⟨rfl, kept'⟩ := seg_setNext kept hc
      (fun mem => (List.nodup_append.mp nodup).2.2 b mem b (List.mem_singleton_self b) rfl) r
    refine ⟨{ m with heap := Function.update m.heap b (some { c with next := r }) }, p, ?_, kept',
      fun _ => rfl, fun x hx => ?_, rfl⟩
    · rw [store, modify_eq hc]
      rfl
    · have last : b ∈ front ++ [b] := List.mem_append_right _ (List.mem_singleton_self b)
      exact Function.update_of_ne (ne_of_mem_of_not_mem last hx).symm _ _

/-- `conn_free` takes the connection out of its list, and if it is the first
one of the process, the list is no longer that of the process. -/
theorem connFree_spec {before after : List Nat} {a : Nat} {c : Cell Bool}
    (kept : Seg flag m.heap .outside p before s (some a)) (hc : m.heap a = some c)
    (prev : c.prev = some s) (rest : Linked flag m.heap (.next a) c.next after)
    (nodup : (before ++ a :: after).Nodup) :
    ∃ m' p', m.connFree a = some m' ∧ Seg flag m'.heap .outside p' before s c.next ∧
      Linked flag m'.heap s c.next after ∧ (before ≠ [] → p' = p) ∧
      m'.connections = if some a = m.connections then none else m.connections := by
  obtain ⟨front, back, apart⟩ := List.nodup_append.mp nodup
  obtain ⟨fresh, back⟩ := List.nodup_cons.mp back
  have before_a : a ∉ before := fun mem => apart a mem a List.mem_cons_self rfl
  have disjoint : ∀ b ∈ before, b ∉ after := fun b hb hb' =>
    apart b hb b (List.mem_cons_of_mem a hb') rfl
  obtain ⟨heap, hung, rest, same⟩ := setPrev_spec rest back s
  have kept : Seg flag heap .outside p before s (some a) :=
    (seg_congr fun b hb => same b (disjoint b hb)).mpr kept
  obtain ⟨m', p', stored, kept, start, same', conns⟩ :=
    store_spec (m := { m with heap }) kept front c.next
  have cell : heap a = some c := (same a fresh).trans hc
  have run : m.connFree a = some ⟨Function.update m'.heap a none,
      if some a = m'.connections then none else m'.connections, m'.connList⟩ := by
    rw [connFree]
    simp only [hc, prev, hung, cell, stored, Option.bind_eq_bind, Option.bind_some]
  obtain ⟨slot', rest⟩ := rest
  refine ⟨_, p', run, (seg_update before_a _).mpr kept, ⟨slot', (seg_update fresh _).mpr ?_⟩,
    start, ?_⟩
  · exact (seg_congr fun b hb => same' b fun hb' => disjoint b hb' hb).mpr rest
  · rw [conns]

/-! ## The loop -/

/-- The loop stands at `q`, with the connections `before` kept. -/
theorem deleteLoop_spec {before rest : List Nat} (kept : Seg flag m.heap .outside p before s q)
    (tail : Linked flag m.heap s q rest) (nodup : (before ++ rest).Nodup) :
    ∃ m' p', (∀ fuel, rest.length < fuel → deleteLoop fuel q m = some m') ∧
      Linked flag m'.heap .outside p' (before ++ rest.filter fun a => !flag a) ∧
      (before ≠ [] → p' = p) ∧
      m'.connections =
        if ∃ a ∈ rest, flag a = true ∧ m.connections = some a then none else m.connections := by
  induction rest generalizing m before p q s with
  | nil =>
    obtain ⟨slot', rfl, rfl⟩ := tail
    refine ⟨m, p, fun fuel enough => ?_, ⟨s, by simpa using kept⟩, fun _ => rfl, by simp⟩
    obtain ⟨fuel, rfl⟩ := Nat.exists_eq_succ_of_ne_zero (Nat.ne_of_gt enough)
    rfl
  | cons a rest ih =>
    obtain ⟨slot', rfl, c, hc, prev, value, rest'⟩ := tail
    cases marked : flag a with
    | true =>
      obtain ⟨m₁, p₁, freed, kept, tail, start, conns⟩ :=
        connFree_spec kept hc prev ⟨slot', rest'⟩ nodup
      have nodup : (before ++ rest).Nodup :=
        nodup.sublist (List.Sublist.append_left (List.sublist_cons_self a rest) before)
      obtain ⟨m', p', run, linked, start', conns'⟩ := ih kept tail nodup
      refine ⟨m', p', fun fuel enough => ?_, ?_, fun h => (start' h).trans (start h), ?_⟩
      · obtain ⟨fuel, rfl⟩ :=
          Nat.exists_eq_succ_of_ne_zero (Nat.ne_of_gt (Nat.zero_lt_of_lt enough))
        rw [deleteLoop, hc]
        simp only [Option.bind_eq_bind, Option.bind_some, value, marked, if_true, freed]
        exact run fuel (Nat.lt_of_succ_lt_succ enough)
      · rwa [List.filter_cons_of_neg (by simp [marked])]
      · rw [conns', conns]
        by_cases first : m.connections = some a
        · simp [first, marked]
        · simp [first, Ne.symm first, marked]
    | false =>
      have kept : Seg flag m.heap .outside p (before ++ [a]) (.next a) c.next :=
        seg_append.mpr ⟨s, some a, kept, rfl, c, hc, prev, value, rfl, rfl⟩
      obtain ⟨m', p', run, linked, start, conns⟩ :=
        ih kept ⟨slot', rest'⟩ (by rwa [List.append_assoc])
      refine ⟨m', p', fun fuel enough => ?_, ?_, fun _ => start (by simp), ?_⟩
      · obtain ⟨fuel, rfl⟩ :=
          Nat.exists_eq_succ_of_ne_zero (Nat.ne_of_gt (Nat.zero_lt_of_lt enough))
        rw [deleteLoop, hc]
        simp only [Option.bind_eq_bind, Option.bind_some, value, marked]
        exact run fuel (Nat.lt_of_succ_lt_succ enough)
      · rwa [List.filter_cons_of_pos (by simp [marked]), List.append_cons]
      · rw [conns]
        simp [marked]

end

end Memory

/-! ## The lists of the program -/

/-- What `delete_all_connections` leaves of a list. -/
def remaining (deleteMe : Nat → Bool) (conns : List Nat) : List Nat :=
  if conns.head?.any deleteMe then [] else conns.filter fun a => !deleteMe a

namespace Memory

variable {flag : Nat → Bool} {m : Memory} {conns : List Nat}

theorem connections_of_linked {a : Nat} (list : Linked flag m.heap .outside m.connections conns)
    (first : m.connections = some a) : ∃ c, m.heap a = some c := by
  obtain ⟨slot', list⟩ := list
  cases conns with
  | nil => cases first.symm.trans list.2
  | cons b rest =>
    obtain rfl := Option.some.inj (first.symm.trans list.1)
    exact list.allocated a List.mem_cons_self

/-- A new connection comes first. -/
theorem connect_spec {a : Nat} (list : Linked flag m.heap .outside m.connections conns)
    (nodup : conns.Nodup) (unmarked : flag a = false) (fresh : m.heap a = none) :
    ∃ m', m.connect a = some m' ∧ Linked flag m'.heap .outside m'.connections (a :: conns) ∧
      ∀ b ∉ a :: conns, m'.heap b = m.heap b := by
  have other : some a ≠ m.connections := by
    intro first
    obtain ⟨c, hc⟩ := connections_of_linked list first.symm
    cases fresh.symm.trans hc
  have apart : a ∉ conns := by
    intro mem
    obtain ⟨slot', list⟩ := list
    obtain ⟨c, hc⟩ := list.allocated a mem
    cases fresh.symm.trans hc
  set heap : Heap Bool := Function.update (Function.update m.heap a (some ⟨none, none, false⟩)) a
    (some ⟨m.connections, some .outside, false⟩) with hheap
  have list₁ : Linked flag heap .outside m.connections conns := by
    obtain ⟨slot', list⟩ := list
    exact ⟨slot', (seg_update apart _).mpr ((seg_update apart _).mpr list)⟩
  obtain ⟨heap', hung, ⟨slot', list'⟩, same⟩ :=
    setPrev_spec (m := ⟨heap, m.connections, m.connections⟩) list₁ nodup (.next a)
  have cell : heap' a = some ⟨m.connections, some .outside, false⟩ := by
    rw [same a apart]
    exact Function.update_self ..
  refine ⟨⟨heap', some a, m.connections⟩, ?_, ⟨slot', rfl, _, cell, rfl, unmarked.symm, list'⟩, ?_⟩
  · rw [connect, if_pos fresh, connAdd]
    simp only [if_pos other, modify_eq (Function.update_self a _ m.heap), Option.bind_eq_bind,
      Option.bind_some, ← hheap, hung]
  · intro b hb
    rw [List.mem_cons, not_or] at hb
    have old : heap' b = heap b := same b hb.2
    show heap' b = m.heap b
    rw [old, hheap, Function.update_of_ne hb.1, Function.update_of_ne hb.1]

/-- Whatever is marked, `delete_all_connections` returns. -/
theorem deleteAllConnections_spec (list : Linked flag m.heap .outside m.connections conns)
    (nodup : conns.Nodup) :
    ∃ m', (∀ fuel, conns.length < fuel → m.deleteAllConnections fuel = some m') ∧
      Linked flag m'.heap .outside m'.connections (remaining flag conns) := by
  have nothing : Seg flag m.heap .outside m.connections [] .outside m.connections := ⟨rfl, rfl⟩
  obtain ⟨m', p', run, linked, -, after⟩ := deleteLoop_spec nothing list nodup
  refine ⟨m', run, ?_⟩
  rw [List.nil_append] at linked
  obtain ⟨slot', list⟩ := list
  cases conns with
  | nil =>
    rw [list.2] at after
    exact ⟨.outside, rfl, by rw [after]; simp⟩
  | cons a rest =>
    rw [list.1] at after
    cases marked : flag a with
    | true =>
      have lost : m'.connections = none := by
        rw [after, if_pos ⟨a, List.mem_cons_self, marked, rfl⟩]
      rw [remaining, if_pos (by simpa using marked)]
      exact ⟨.outside, rfl, lost⟩
    | false =>
      have still : m'.connections = some a := by
        rw [after, if_neg]
        rintro ⟨b, -, bad, same⟩
        obtain rfl := Option.some.inj same
        rw [marked] at bad
        cases bad
      rw [remaining, if_neg (by simpa using marked), still]
      rw [List.filter_cons_of_pos (by simp [marked])] at linked ⊢
      obtain ⟨last, start, linked⟩ := linked
      exact ⟨last, rfl, linked⟩

/-- The connections that were added are in the list. -/
theorem built_spec {conns : List Nat} (nodup : conns.Nodup) :
    ∃ m, conns.foldlM connect init = some m ∧
      Linked (fun _ => false) m.heap .outside m.connections conns.reverse ∧
      ∀ b ∉ conns, m.heap b = none := by
  induction conns using List.reverseRecOn with
  | nil => exact ⟨init, rfl, ⟨.outside, rfl, rfl⟩, fun _ _ => rfl⟩
  | append_singleton conns a ih =>
    obtain ⟨nodup, -, apart⟩ := List.nodup_append.mp nodup
    have fresh : a ∉ conns := fun mem => apart a mem a (List.mem_singleton_self a) rfl
    obtain ⟨m, built, list, free⟩ := ih nodup
    obtain ⟨m', added, list', same⟩ :=
      connect_spec list (List.nodup_reverse.mpr nodup) rfl (free a fresh)
    refine ⟨m', ?_, by rwa [List.reverse_append], fun b hb => ?_⟩
    · rw [List.foldlM_append, built]
      simpa using added
    · rw [List.mem_append, List.mem_singleton, not_or] at hb
      rw [same b (by simpa [hb.2] using hb.1), free b hb.1]

/-- The marks of a list. -/
theorem linked_mark {before : Nat → Bool}
    (list : Linked before m.heap .outside m.connections conns) (deleteMe : Nat → Bool) :
    Linked deleteMe (m.mark deleteMe).heap .outside (m.mark deleteMe).connections conns := by
  obtain ⟨slot', list⟩ := list
  exact ⟨slot', list.revalue⟩

end Memory

theorem remaining_eq_filter_iff {deleteMe : Nat → Bool} {conns : List Nat} :
    remaining deleteMe conns = conns.filter (fun a => !deleteMe a) ↔
      (∀ a ∈ conns.head?, deleteMe a = false) ∨ ∀ a ∈ conns, deleteMe a = true := by
  cases conns with
  | nil => simp [remaining]
  | cons a rest =>
    cases marked : deleteMe a with
    | true =>
      rw [remaining, if_pos (by simpa using marked), eq_comm, List.filter_eq_nil_iff]
      simp [marked]
    | false => simp [remaining, marked]

/-- On a server, the list behind `get_connections()` after
`delete_all_connections` is the old one without the marked connections exactly
if the most recent connection is not marked or all of them are. -/
theorem delete_keeps_others_iff {conns : List Nat} (distinct : conns.Nodup)
    (deleteMe : Nat → Bool) :
    ∃ m m' before after, conns.foldlM Memory.connect Memory.init = some m ∧ m.Lists before ∧
      before = conns.reverse ∧
      (∀ fuel, conns.length < fuel →
        (m.mark deleteMe).deleteAllConnections fuel = some m') ∧ m'.Lists after ∧
      (after = before.filter (fun a => !deleteMe a) ↔
        (∀ a ∈ before.head?, deleteMe a = false) ∨ ∀ a ∈ before, deleteMe a = true) := by
  obtain ⟨m, built, list, -⟩ := Memory.built_spec distinct
  obtain ⟨m', run, left⟩ :=
    Memory.deleteAllConnections_spec (Memory.linked_mark list deleteMe)
      (List.nodup_reverse.mpr distinct)
  rw [List.length_reverse] at run
  exact ⟨m, m', _, _, built, list.reaches, rfl, run, left.reaches, remaining_eq_filter_iff⟩

/-- Three clients connect, and the last one is the first to finish. -/
theorem delete_keeps_others_iff_three :
    ∃ m m' before after, [0, 1, 2].foldlM Memory.connect Memory.init = some m ∧ m.Lists before ∧
      before = [2, 1, 0] ∧
      (∀ fuel, 3 < fuel → (m.mark (· == 2)).deleteAllConnections fuel = some m') ∧
      m'.Lists after ∧
      (after = before.filter (fun a => !(a == 2)) ↔
        (∀ a ∈ before.head?, (a == 2) = false) ∨ ∀ a ∈ before, (a == 2) = true) :=
  have distinct : [0, 1, 2].Nodup := by decide
  delete_keeps_others_iff distinct (· == 2)

/-- The last of three clients to connect takes the other two with it. -/
theorem last_client_takes_all :
    ¬ ∀ (conns : List Nat) (deleteMe : Nat → Bool) (m m' : Memory) (fuel : Nat)
        (before after : List Nat), conns.Nodup →
      conns.foldlM Memory.connect Memory.init = some m → m.Lists before →
      (m.mark deleteMe).deleteAllConnections fuel = some m' → m'.Lists after →
      after = before.filter fun a => !deleteMe a := by
  intro keeps
  have distinct : [0, 1, 2].Nodup := by decide
  obtain ⟨m, built, list, -⟩ := Memory.built_spec distinct
  obtain ⟨m', run, left⟩ :=
    Memory.deleteAllConnections_spec (Memory.linked_mark list (· == 2)) (by decide)
  have := keeps [0, 1, 2] (· == 2) m m' 4 _ _ distinct built list.reaches
    (run 4 (by decide)) left.reaches
  revert this
  decide

/-! ## The main loop -/

/-- The memory holds the connections of the loop. -/
structure Represents (m : Memory) (l : Loop) : Prop where
  distinct : (l.connections.map Connection.id).Nodup
  list : ∃ deleteMe : Nat → Bool, (∀ c ∈ l.connections, deleteMe c.id = c.deleteMe) ∧
    Linked deleteMe m.heap .outside m.connections (l.connections.map Connection.id)

theorem remaining_ids {deleteMe : Nat → Bool} {l : Loop}
    (marks : ∀ c ∈ l.connections, deleteMe c.id = c.deleteMe) :
    remaining deleteMe (l.connections.map Connection.id) =
      (Host.deleteAllConnections l).connections.map Connection.id := by
  have kept : l.connections.filter (fun c => !deleteMe c.id) =
      l.connections.filter fun c => !c.deleteMe :=
    List.filter_congr fun c hc => by rw [marks c hc]
  have first : (l.connections.map Connection.id).head?.any deleteMe =
      l.connections.head?.any Connection.deleteMe := by
    cases h : l.connections with
    | nil => rfl
    | cons c rest => simpa using marks c (h ▸ List.mem_cons_self)
  rw [remaining, Host.deleteAllConnections, first, List.filter_map]
  split
  · rfl
  · exact congrArg (List.map Connection.id) kept

/-- `delete_all_connections` of the main loop is what the pointers do. -/
theorem represents_delete {m : Memory} {l : Loop} (h : Represents m l) :
    ∃ m', (∀ fuel, l.connections.length < fuel → m.deleteAllConnections fuel = some m') ∧
      Represents m' (Host.deleteAllConnections l) := by
  obtain ⟨deleteMe, marks, list⟩ := h.list
  obtain ⟨m', run, left⟩ := Memory.deleteAllConnections_spec list h.distinct
  rw [List.length_map] at run
  rw [remaining_ids marks] at left
  have sub : (Host.deleteAllConnections l).connections.Sublist l.connections := by
    rw [Host.deleteAllConnections]
    split
    · exact List.nil_sublist _
    · exact List.filter_sublist
  exact ⟨m', run, (sub.map _).nodup h.distinct, deleteMe, fun c hc => marks c (sub.subset hc), left⟩

/-- Accepting a client is `conn_add` of a new connection. -/
theorem represents_connect {h : Host} {m : Memory} {l : Loop} {packet : Packet}
    (rep : Represents m l) (accepted : h.server = true ∧ l.numConnected < Host.maxNumClients)
    (fresh : m.heap l.numConnected = none) :
    ∃ m', m.connect l.numConnected = some m' ∧ Represents m' (h.tcpNewConnection l packet) := by
  obtain ⟨deleteMe, marks, list⟩ := rep.list
  have apart : l.numConnected ∉ l.connections.map Connection.id := by
    intro mem
    obtain ⟨slot', list⟩ := list
    obtain ⟨c, hc⟩ := list.allocated _ mem
    cases fresh.symm.trans hc
  let deleteMe' : Nat → Bool := Function.update deleteMe l.numConnected false
  have old : ∀ a ∈ l.connections.map Connection.id, deleteMe' a = deleteMe a := fun a ha =>
    Function.update_of_ne (ne_of_mem_of_not_mem ha apart) _ _
  have list' :
      Linked deleteMe' m.heap .outside m.connections (l.connections.map Connection.id) := by
    obtain ⟨slot', list⟩ := list
    exact ⟨slot', list.congr_val old⟩
  obtain ⟨m', added, list', -⟩ :=
    Memory.connect_spec list' rep.distinct (Function.update_self ..) fresh
  refine ⟨m', added, ?_⟩
  rw [Host.tcpNewConnection, if_pos accepted]
  refine ⟨List.nodup_cons.mpr ⟨apart, rep.distinct⟩, deleteMe', ?_, list'⟩
  rw [List.forall_mem_cons]
  refine ⟨Function.update_self .., fun c hc => ?_⟩
  rw [old c.id (List.mem_map_of_mem hc), marks c hc]

end NetLabs.Ctcp
