/-
NetLabs.Ctcp.LoopSessions — the main loop as a scheduler of sessions.

An iteration of `do_loop` calls callbacks of several connections. What it does
to one of them is a sequence of calls on its session: reads and outputs first,
then at most one `ctcp_receive`, for the packet of this iteration and only if
`recv_filter` may take it for one of this connection, then the timer
(`Served`). No connection gets the calls of another one, and none is left out
(`callbacks_serve`).
-/
import NetLabs.Ctcp.ConnectionTable

namespace NetLabs.Ctcp

open NetLabs.Lib

/-- The session is that of the connection object. -/
structure Session.Of (s : Session) (c : Connection) : Prop where
  state : s.state = c.state
  readEof : s.readEof = c.readEof

/-- A call is a step of every session with the state, except that no input
comes after its end. -/
theorem CallStep.session {env : Env} {s : Session} {call : Call} {state : CtcpState}
    (step : CallStep env s.state call state) (goesOn : ∀ b, call = .block b → s.readEof = false) :
    ∃ t, SessionStep env s call t ∧ t.state = state ∧ t.readEof = (s.readEof || call.ends) := by
  obtain ⟨alive, returns⟩ := step
  have enabled : s.Enabled call := by
    cases call with
    | block b => exact ⟨alive, goesOn b rfl⟩
    | _ => exact alive
  exact ⟨_, ⟨enabled, congrArg (Option.map _) returns⟩, rfl, rfl⟩

namespace Host

variable {h : Host} {p : Polled} {l l' : Loop} {c c' : Connection}

/-! ## Calls on one connection -/

/-- The connection object after calls that receive nothing. -/
structure Quiet (h : Host) (c c' : Connection) : Prop where
  key : key c' = key c
  run : ∀ s : Session, s.Of c → ∃ calls t, Run (SessionStep (h.env c.id)) s calls t ∧ t.Of c' ∧
    ∀ call ∈ calls, call.receives = false

theorem Quiet.refl (c : Connection) : Quiet h c c :=
  ⟨rfl, fun s same => ⟨[], s, .nil, same, List.forall_mem_nil _⟩⟩

theorem Quiet.trans {c'' : Connection} (first : Quiet h c c') (second : Quiet h c' c'') :
    Quiet h c c'' := by
  refine ⟨second.key.trans first.key, fun s same => ?_⟩
  obtain ⟨calls, t, run, same, quiet⟩ := first.run s same
  obtain ⟨calls', u, run', same', quiet'⟩ := second.run t same
  have id : c'.id = c.id := (Prod.mk.inj first.key).1
  rw [id] at run'
  exact ⟨calls ++ calls', u, run.trans run', same',
    fun call mem => (List.mem_append.mp mem).elim (quiet call) (quiet' call)⟩

/-- A callback that returns is a call of the state. -/
theorem callback_call {u : Use} {call : Call} :
    Ends (fun _ => True)
      (fun c' => (key c' = key c ∧ c'.readEof = c.readEof) ∧
        CallStep (h.env c.id) c.state call c'.state) (h.callback u c call) := by
  rw [callback, Connection.use, ends_bind, ends_ite]
  refine ⟨fun alive => ?_, fun _ => trivial⟩
  rw [ends_ok]
  split
  · trivial
  · rename_i returns
    rw [ends_ite, ends_ite]
    exact ⟨fun _ => ⟨⟨rfl, rfl⟩, alive, returns⟩,
      fun _ => ⟨fun _ => ⟨⟨rfl, rfl⟩, alive, returns⟩, fun _ => trivial⟩⟩

/-- Every callback but `ctcp_receive` and `ctcp_read` is quiet. -/
theorem callback_quiet {u : Use} {call : Call} (quiet : call.receives = false)
    (plain : ∀ b, call ≠ .block b) (goesOn : call.ends = false) :
    Ends (fun _ => True) (Quiet h c) (h.callback u c call) := by
  refine callback_call.imp fun c' called => ?_
  obtain ⟨⟨key, readEof⟩, step⟩ := called
  refine ⟨key, fun s same => ?_⟩
  rw [← same.state] at step
  obtain ⟨t, step, state, eof⟩ := step.session fun b block => absurd block (plain b)
  refine ⟨[call], t, .single step, ⟨state, ?_⟩, fun _ mem => List.mem_singleton.mp mem ▸ quiet⟩
  rw [eof, goesOn, Bool.or_false, same.readEof, readEof]

/-! ## Input -/

/-- The blocks of an input are read one after the other. -/
theorem blocks_run (bs : List Block) :
    Ends (fun _ => True)
      (fun c' => (key c' = key c ∧ c'.readEof = c.readEof) ∧
        ∀ s : Session, s.state = c.state → (bs ≠ [] → s.readEof = false) →
          ∃ t, Run (SessionStep (h.env c.id)) s (bs.map .block) t ∧ t.state = c'.state ∧
            t.readEof = s.readEof)
      ((bs.map Call.block).foldlM (h.callback .connInput) c) := by
  induction bs generalizing c with
  | nil => exact ⟨⟨rfl, rfl⟩, fun s state _ => ⟨s, .nil, state, rfl⟩⟩
  | cons b bs ih =>
    rw [List.map_cons, List.foldlM_cons, ends_bind]
    refine callback_call.imp fun c₁ called => ih.imp fun c₂ done => ?_
    obtain ⟨⟨key, readEof⟩, step⟩ := called
    obtain ⟨same, rest⟩ := done
    refine ⟨⟨same.1.trans key, same.2.trans readEof⟩, fun s state goesOn => ?_⟩
    have open_ := goesOn (List.cons_ne_nil b bs)
    rw [← state] at step
    obtain ⟨t, step, state, eof⟩ := step.session fun _ _ => open_
    have eof : t.readEof = s.readEof := eof.trans (Bool.or_false _)
    obtain ⟨u, run, last, eof'⟩ := rest t state fun _ => eof.trans open_
    have id : c₁.id = c.id := (Prod.mk.inj key).1
    rw [id] at run
    exact ⟨u, (Run.single step).trans run, last, eof'.trans eof⟩

/-- `ctcp_read` reads blocks until the end of input, or only the end. -/
theorem ctcpRead_quiet {i : Input} : Ends (fun _ => True) (Quiet h c) (h.ctcpRead c i) := by
  rw [ctcpRead, ends_bind]
  refine ends_used ?_
  dsimp only
  have none_after :
      c.readEof = true → (if c.readEof then (⟨[], true⟩ : Input) else i).blocks = [] :=
    fun ended => by rw [if_pos ended]
  generalize (if c.readEof then (⟨[], true⟩ : Input) else i) = input at none_after ⊢
  rw [Input.calls, List.foldlM_append, ends_bind]
  refine (blocks_run input.blocks).imp fun c₁ done => ?_
  obtain ⟨⟨key₁, readEof₁⟩, blocks⟩ := done
  have reads (s : Session) (same : s.Of c) :
      ∃ t, Run (SessionStep (h.env c.id)) s (input.blocks.map .block) t ∧ t.state = c₁.state ∧
        t.readEof = c.readEof := by
    rw [← same.readEof] at none_after ⊢
    refine blocks s same.state fun some => ?_
    exact Bool.eq_false_of_not_eq_true fun ended => some (none_after ended)
  have quiet (bs : List Block) : ∀ call ∈ bs.map Call.block, call.receives = false := by
    intro call mem
    obtain ⟨b, -, rfl⟩ := List.mem_map.mp mem
    rfl
  split
  · rename_i eof
    rw [List.foldlM_cons, ends_bind]
    refine callback_call.imp fun c₂ called => ?_
    obtain ⟨⟨key₂, readEof₂⟩, step⟩ := called
    refine ⟨key₂.trans key₁, fun s same => ?_⟩
    obtain ⟨t, run, state, readEof⟩ := reads s same
    have id : c₁.id = c.id := (Prod.mk.inj key₁).1
    rw [← state, id] at step
    obtain ⟨u, step, last, ended⟩ := step.session fun b block => by cases block
    refine ⟨_, u, run.snoc step, ⟨last, ?_⟩, fun call mem => ?_⟩
    · rw [ended, readEof₂, readEof₁, eof]
      exact (Bool.or_true _).trans (Bool.or_true _).symm
    · rcases List.mem_append.mp mem with mem | mem
      · exact quiet _ call mem
      · rw [List.mem_singleton.mp mem]
        rfl
  · rename_i goesOn
    refine ⟨key₁, fun s same => ?_⟩
    obtain ⟨t, run, state, readEof⟩ := reads s same
    refine ⟨_, t, run, ⟨state, ?_⟩, quiet _⟩
    rw [readEof, readEof₁, Bool.eq_false_of_not_eq_true goesOn, Bool.or_false]

theorem readStdin_quiet {cs : List Connection} :
    Ends (fun _ => True) (Each (Quiet h) cs) (h.readStdin p cs) := by
  cases cs with
  | nil => exact .refl .refl []
  | cons c rest =>
    rw [readStdin]
    split
    · rw [ends_ite, ends_ok, ends_map]
      refine ⟨fun _ => .refl .refl _, fun _ => ctcpRead_quiet.imp fun c' quiet d mem => ?_⟩
      rcases List.mem_cons.mp mem with rfl | mem
      · exact ⟨c', List.mem_cons_self, quiet⟩
      · exact ⟨d, List.mem_cons_of_mem c' mem, .refl d⟩
    · exact .refl .refl _

theorem connDrain_quiet : Ends (fun _ => True) (Quiet h c) (h.connDrain p c) := by
  rw [connDrain, ends_ite]
  exact ⟨fun _ => callback_quiet rfl (fun _ block => by cases block) rfl, fun _ => .refl c⟩

theorem readProgram_quiet : Ends (fun _ => True) (Quiet h c) (h.readProgram p c) := by
  rw [readProgram]
  split
  · rw [ends_ite]
    exact ⟨fun _ => ctcpRead_quiet, fun _ => .refl c⟩
  · exact .refl c

theorem Each.trans_quiet {as bs cs : List Connection} (first : Each (Quiet h) as bs)
    (second : Each (Quiet h) bs cs) : Each (Quiet h) as cs := by
  intro a mem
  obtain ⟨b, mem, quiet⟩ := first a mem
  obtain ⟨c, mem, quiet'⟩ := second b mem
  exact ⟨c, mem, quiet.trans quiet'⟩

theorem inputs_quiet :
    Ends (fun _ => True) (fun l' => Each (Quiet h) l.connections l'.connections ∧ l'.lost = l.lost)
      (h.inputs p l) := by
  simp only [inputs, ends_bind, ends_pure, and_true]
  refine readStdin_quiet.imp fun cs₁ first => ?_
  refine (Ends.mapM_each fun _ => connDrain_quiet).imp fun cs₂ second => ?_
  refine (Ends.mapM_each fun _ => readProgram_quiet).imp fun cs₃ third => ?_
  exact Each.trans_quiet (Each.trans_quiet first second) third

/-! ## The socket -/

/-- The connection object after the socket: as it was, or its session has
received the packet of this iteration. -/
def Receives (h : Host) (p : Polled) (c c' : Connection) : Prop :=
  c' = c ∨ ∃ buf, p.packet = some buf ∧ h.matching (packetOf buf) c = true ∧
    (key c' = key c ∧ c'.readEof = c.readEof) ∧
      CallStep (h.env c.id) c.state (.receive (h.segment c buf)) c'.state

/-- What `recv_filter` finds, it finds by the test. -/
theorem recvFilter_matching {cs : List Connection} {buf : List UInt8} {len : Nat}
    (found : h.recvFilter cs buf = .ok (len, some c)) : h.matching (packetOf buf) c = true := by
  rw [recvFilter] at found
  split_ifs at found
  · cases found
  · cases found
  · cases found
  · split at found
    · rename_i first
      obtain rfl := Option.some.inj (Prod.mk.inj (Except.ok.inj found)).2
      exact List.find?_some first
    · cases found

/-- A packet makes a connection with a new number, or it reaches at most one
connection. -/
theorem receive_receives (ids : (l.connections.map Connection.id).Nodup) :
    Ends (fun _ => True)
      (fun l' => Each (h.Receives p) l.connections l'.connections ∧ l'.lost = l.lost)
      (h.receive p l) := by
  have same (l : Loop) : Each (h.Receives p) l.connections l.connections ∧ l.lost = l.lost :=
    ⟨.refl (fun _ => .inl rfl) _, rfl⟩
  rw [receive]
  cases packet : p.packet with
  | none => exact same l
  | some buf =>
    rw [ends_bind, ends_returned]
    rintro ⟨len, conn⟩ found
    dsimp only
    split
    · exact same l
    · split
      · rename_i c
        split
        · exact same l
        · rw [ends_bind]
          refine callback_call.imp fun c' received => ⟨fun d mem => ?_, rfl⟩
          refine ⟨_, List.mem_map_of_mem mem, ?_⟩
          split
          · rename_i sameId
            obtain rfl := List.inj_on_of_nodup_map ids mem (recvFilter_some found).1 sameId
            exact .inr ⟨buf, packet, recvFilter_matching found, received⟩
          · exact .inl rfl
      · rw [ends_ok]
        split
        · rw [tcpNewConnection]
          split
          · exact ⟨fun d mem => ⟨d, List.mem_cons_of_mem _ mem, .inl rfl⟩, rfl⟩
          · exact same l
        · exact same l

/-! ## The timer -/

theorem timerVisit_quiet : Ends (fun _ => True) (Quiet h c) (h.timerVisit c) := by
  have visit : Ends (fun _ => True) (Quiet h c) (h.callback .ctcpTimer c .timer) :=
    callback_quiet rfl (fun _ block => by cases block) rfl
  rw [timerVisit, ends_ite, ends_bind]
  refine ⟨fun _ => visit.imp fun c' quiet => ?_, fun _ => .refl c⟩
  rw [ends_bind]
  exact ends_used quiet

theorem checkTimer_quiet :
    Ends (fun _ => True)
      (fun l' => Each (Quiet h) l.connections l'.connections ∧ Each (Quiet h) l.lost l'.lost)
      (h.checkTimer p l) := by
  rw [checkTimer, ends_ite, ends_bind]
  refine ⟨fun _ => (Ends.mapM_each fun _ => timerVisit_quiet).imp fun cs first => ?_,
    fun _ => ⟨.refl .refl _, .refl .refl _⟩⟩
  rw [ends_bind]
  exact (Ends.mapM_each fun _ => timerVisit_quiet).imp fun lost second => ⟨first, second⟩

theorem checkTimer_lost :
    Ends (fun _ => True) (fun l' => l'.lost.map key = l.lost.map key) (h.checkTimer p l) := by
  rw [checkTimer, ends_ite, ends_bind, ends_returned]
  refine ⟨fun _ cs _ => ?_, fun _ => rfl⟩
  rw [ends_bind]
  exact (Ends.mapM_map fun _ => timerVisit_key).imp fun lost same => same

/-! ## An iteration -/

/-- What an iteration does to a connection object. -/
def Served (h : Host) (p : Polled) (c c' : Connection) : Prop :=
  ∃ c₁ c₂, Quiet h c c₁ ∧ h.Receives p c₁ c₂ ∧ Quiet h c₂ c'

/-- All connections the process knows. -/
def all (l : Loop) : List Connection := l.connections ++ l.lost

/-- Every connection is served, for itself. -/
theorem callbacks_serve (ids : (l.connections.map Connection.id).Nodup) :
    Ends (fun _ => True) (fun l' => Each (h.Served p) (all l) (all l')) (h.callbacks l p) := by
  rw [callbacks, ends_bind, ends_returned]
  intro l₁ input
  obtain ⟨quiet₁, lost₁⟩ := (inputs_quiet (l := l)).returned input
  have ids₁ : (l₁.connections.map Connection.id).Nodup := by
    rw [(inputs_same.returned input).ids]
    exact ids
  rw [ends_bind]
  refine (receive_receives ids₁).imp fun l₂ socket => checkTimer_quiet.imp fun l₃ timer => ?_
  obtain ⟨received, lost₂⟩ := socket
  obtain ⟨quiet₃, lost₃⟩ := timer
  refine Each.append ?_ ?_
  · intro c mem
    obtain ⟨c₁, mem₁, first⟩ := quiet₁ c mem
    obtain ⟨c₂, mem₂, second⟩ := received c₁ mem₁
    obtain ⟨c₃, mem₃, third⟩ := quiet₃ c₂ mem₂
    exact ⟨c₃, mem₃, c₁, c₂, first, second, third⟩
  · rw [← lost₁, ← lost₂]
    intro c mem
    obtain ⟨c₃, mem₃, third⟩ := lost₃ c mem
    exact ⟨c₃, mem₃, c, c, .refl c, .inl rfl, third⟩

/-! ## Numbers of connections -/

/-- No two connections have one number, and a server gives out higher numbers
than it has given out. -/
structure Distinct (h : Host) (l : Loop) : Prop where
  ids : ((all l).map Connection.id).Nodup
  below : h.server = true → ∀ c ∈ all l, c.id < l.numConnected

theorem Distinct.connections (distinct : h.Distinct l) :
    (l.connections.map Connection.id).Nodup := by
  have ids := distinct.ids
  rw [all, List.map_append] at ids
  exact ids.of_append_left

/-- A server may get one more connection. -/
def Grows (h : Host) (l l' : Loop) (ks ks' : List (Nat × Conn)) : Prop :=
  ks' = ks ∧ l'.numConnected = l.numConnected ∨
    h.server = true ∧ (∃ conn, ks' = (l.numConnected, conn) :: ks) ∧
      l'.numConnected = l.numConnected + 1

theorem receive_grows (ids : (l.connections.map Connection.id).Nodup)
    (received : h.receive p l = .ok l') :
    h.Grows l l' (l.connections.map key) (l'.connections.map key) := by
  rcases (receive_table ids).returned received with ⟨buf, -, accepted, rfl⟩ | ⟨-, same⟩
  · rw [tcpNewConnection]
    split
    · rename_i room
      exact .inr ⟨room.1, ⟨_, rfl⟩, rfl⟩
    · exact .inl ⟨rfl, rfl⟩
  · exact .inl ⟨same.keys, same.count⟩

/-- An iteration keeps the numbers and the peers of the connections. -/
theorem callbacks_grows (ids : (l.connections.map Connection.id).Nodup)
    (ran : h.callbacks l p = .ok l') : h.Grows l l' ((all l).map key) ((all l').map key) := by
  obtain ⟨l₁, input, ran⟩ := ok_of_bind ran
  obtain ⟨l₂, received, checked⟩ := ok_of_bind ran
  have same₁ : SameTable l l₁ := inputs_same.returned input
  have same₃ : SameTable l₂ l' := checkTimer_same.returned checked
  have lost₁ : l₁.lost = l.lost := (inputs_quiet.returned input).2
  have ids₁ : (l₁.connections.map Connection.id).Nodup := same₁.ids ▸ ids
  have lost₂ : l₂.lost = l₁.lost := ((receive_receives ids₁).returned received).2
  have lost₃ : l'.lost.map key = l₂.lost.map key := checkTimer_lost.returned checked
  have grows := receive_grows ids₁ received
  rw [Grows, same₁.keys, same₁.count, ← same₃.keys, ← same₃.count] at grows
  rw [all, all, List.map_append, List.map_append, lost₃, lost₂, lost₁]
  rcases grows with ⟨keys, count⟩ | ⟨server, ⟨conn, keys⟩, count⟩
  · exact .inl ⟨by rw [keys], count⟩
  · exact .inr ⟨server, ⟨conn, by rw [keys]; rfl⟩, count⟩

theorem ids_of_keys {cs cs' : List Connection} (same : cs'.map key = cs.map key) :
    cs'.map Connection.id = cs.map Connection.id := by
  have := congrArg (List.map Prod.fst) same
  rwa [List.map_map, List.map_map] at this

theorem distinct_callbacks (distinct : h.Distinct l) (ran : h.callbacks l p = .ok l') :
    h.Distinct l' := by
  have below (server : h.server = true) :
      ∀ id ∈ (all l).map Connection.id, id < l.numConnected := by
    intro id held
    obtain ⟨c, mem, rfl⟩ := List.mem_map.mp held
    exact distinct.below server c mem
  rcases callbacks_grows distinct.connections ran with ⟨keys, count⟩ | ⟨server, ⟨conn, keys⟩, count⟩
  · have ids := ids_of_keys keys
    refine ⟨ids ▸ distinct.ids, fun server c mem => ?_⟩
    rw [count]
    exact below server c.id (ids ▸ List.mem_map_of_mem mem)
  · have ids : (all l').map Connection.id = l.numConnected :: (all l).map Connection.id := by
      have := congrArg (List.map Prod.fst) keys
      rwa [List.map_cons, List.map_map, List.map_map] at this
    refine ⟨ids ▸ List.nodup_cons.mpr ⟨fun mem => ?_, distinct.ids⟩, fun _ c mem => ?_⟩
    · exact Nat.lt_irrefl _ (below server _ mem)
    · have mem := List.mem_map_of_mem (f := Connection.id) mem
      rw [ids] at mem
      rw [count]
      rcases List.mem_cons.mp mem with new | old
      · omega
      · exact Nat.lt_succ_of_lt (below server _ old)

/-! ## Removal -/

/-- What is marked is gone, in the list and out of it. -/
theorem all_delete (l : Loop) :
    all (deleteAllConnections l) = l.connections.filter (fun c => !c.deleteMe) ++ l.lost := by
  rw [deleteAllConnections, all]
  split
  · rfl
  · rfl

theorem distinct_delete (distinct : h.Distinct l) : h.Distinct (deleteAllConnections l) := by
  have sub : (all (deleteAllConnections l)).Sublist (all l) := by
    rw [all_delete]
    exact List.filter_sublist.append_right l.lost
  refine ⟨distinct.ids.sublist (sub.map _), fun server c mem => ?_⟩
  rw [count_delete]
  exact distinct.below server c (sub.subset mem)

/-- After the callbacks of an iteration the marks tell what is destroyed. -/
theorem callbacks_marked (inv : LoopInv l) (ran : h.callbacks l p = .ok l') :
    (∀ c ∈ l'.connections, c.Marked) ∧ ∀ c ∈ l'.lost, c.Alive := by
  obtain ⟨l₁, input, ran⟩ := ok_of_bind ran
  obtain ⟨l₂, received, checked⟩ := ok_of_bind ran
  obtain ⟨marked₁, lost₁⟩ := (inputs_ends p inv.connections).returned input
  obtain ⟨marked₂, lost₂⟩ := receive_marked p marked₁ received
  refine checkTimer_ok p marked₂ ?_ checked
  rw [lost₂, lost₁]
  exact inv.lost

/-- A connection is removed exactly if it was destroyed. -/
theorem mem_delete_iff (marked : ∀ c ∈ l.connections, c.Marked) (lost : ∀ c ∈ l.lost, c.Alive)
    (mem : c ∈ all l) : c ∈ all (deleteAllConnections l) ↔ c.state.alive = true := by
  rw [all_delete, List.mem_append, List.mem_filter]
  constructor
  · rintro (⟨mem, unmarked⟩ | mem)
    · exact ((marked c mem).alive (by simpa using unmarked)).state
    · exact (lost c mem).state
  · intro alive
    rcases List.mem_append.mp mem with mem | mem
    · refine .inl ⟨mem, ?_⟩
      rw [marked c mem, alive]
      rfl
    · exact .inr mem

/-! ## The session of a connection -/

theorem Served.key {c c' : Connection} (served : h.Served p c c') : Host.key c' = Host.key c := by
  obtain ⟨c₁, c₂, first, received, last⟩ := served
  refine last.key.trans (Eq.trans ?_ first.key)
  rcases received with rfl | ⟨-, -, -, ⟨same, -⟩, -⟩
  · rfl
  · exact same

/-- To a session it is a sequence of calls. -/
theorem Served.session {c c' : Connection} (served : h.Served p c c') {s : Session}
    (same : s.Of c) :
    ∃ calls t, Run (SessionStep (h.env c.id)) s calls t ∧ t.Of c' := by
  obtain ⟨c₁, c₂, first, received, last⟩ := served
  obtain ⟨calls₁, s₁, run₁, same₁, -⟩ := first.run s same
  have id₁ : c₁.id = c.id := (Prod.mk.inj first.key).1
  obtain ⟨calls₂, s₂, run₂, same₂, id₂⟩ : ∃ calls₂ s₂,
      Run (SessionStep (h.env c.id)) s₁ calls₂ s₂ ∧ s₂.Of c₂ ∧ c₂.id = c₁.id := by
    rcases received with rfl | ⟨buf, -, -, ⟨key, readEof⟩, step⟩
    · exact ⟨[], s₁, .nil, same₁, rfl⟩
    · rw [id₁, ← same₁.state] at step
      obtain ⟨t, step, state, eof⟩ := step.session fun b block => by cases block
      refine ⟨_, t, .single step, ⟨state, ?_⟩, (Prod.mk.inj key).1⟩
      rw [eof, same₁.readEof, readEof]
      exact Bool.or_false _
  obtain ⟨calls₃, s₃, run₃, same₃, -⟩ := last.run s₂ same₂
  rw [id₂, id₁] at run₃
  exact ⟨_, s₃, (run₁.trans run₂).trans run₃, same₃⟩

/-- The session is that of the connection with the number, which is gone if
the session was destroyed. -/
def Reflects (h : Host) (l : Loop) (id : Nat) (conn : Conn) (s : Session) : Prop :=
  (∃ c ∈ all l, key c = (id, conn) ∧ s.Of c) ∨
    s.state.alive = false ∧ (∀ c ∈ all l, c.id ≠ id) ∧ (h.server = true → id < l.numConnected)

/-- An iteration serves a connection that is there, and after it the session
is again that of the connection. A connection that is gone stays so. -/
theorem reflects_callbacks {id : Nat} {conn : Conn} {s : Session} (inv : LoopInv l)
    (distinct : h.Distinct l) (reflects : h.Reflects l id conn s)
    (ran : h.callbacks l p = .ok l') :
    (∃ c ∈ all l, ∃ c' ∈ all l', key c = (id, conn) ∧ s.Of c ∧ h.Served p c c' ∧
      ∀ t : Session, t.Of c' → h.Reflects (deleteAllConnections l') id conn t) ∨
    (∀ c ∈ all l', c.id ≠ id) ∧ h.Reflects (deleteAllConnections l') id conn s := by
  have kept : all (deleteAllConnections l') ⊆ all l' := by
    rw [all_delete]
    exact (List.filter_sublist.append_right l'.lost).subset
  rcases reflects with ⟨c, mem, known, same⟩ | ⟨dead, gone, below⟩
  · obtain ⟨c', mem', served⟩ := (callbacks_serve distinct.connections).returned ran c mem
    obtain ⟨marked, lost⟩ := callbacks_marked inv ran
    have distinct' := distinct_callbacks distinct ran
    have known' : key c' = (id, conn) := served.key.trans known
    have number : c'.id = id := (Prod.mk.inj known').1
    refine .inl ⟨c, mem, c', mem', known, same, served, fun t same' => ?_⟩
    by_cases alive : c'.state.alive = true
    · exact .inl ⟨c', (mem_delete_iff marked lost mem').mpr alive, known', same'⟩
    · refine .inr ⟨?_, fun d memd sameId => alive ?_, fun server => ?_⟩
      · rw [same'.state]
        exact Bool.eq_false_of_not_eq_true alive
      · obtain rfl : d = c' :=
          List.inj_on_of_nodup_map distinct'.ids (kept memd) mem' (sameId.trans number.symm)
        exact (mem_delete_iff marked lost mem').mp memd
      · rw [count_delete, ← number]
        exact distinct'.below server c' mem'
  · have absent : id ∉ (all l).map Connection.id := by
      intro held
      obtain ⟨c, mem, number⟩ := List.mem_map.mp held
      exact gone c mem number
    have after : id ∉ (all l').map Connection.id ∧ (h.server = true → id < l'.numConnected) := by
      rcases callbacks_grows distinct.connections ran with
        ⟨keys, count⟩ | ⟨server, ⟨conn', keys⟩, count⟩
      · rw [ids_of_keys keys, count]
        exact ⟨absent, below⟩
      · have ids := congrArg (List.map Prod.fst) keys
        rw [List.map_cons, List.map_map, List.map_map] at ids
        have ids : (all l').map Connection.id = l.numConnected :: (all l).map Connection.id := ids
        have old := below server
        rw [ids, count]
        refine ⟨fun held => ?_, fun _ => by omega⟩
        rcases List.mem_cons.mp held with new | held
        · omega
        · exact absent held
    have none : ∀ c ∈ all l', c.id ≠ id := fun c mem number =>
      after.1 (number ▸ List.mem_map_of_mem mem)
    refine .inr ⟨none, .inr ⟨dead, fun c mem => none c (kept mem), ?_⟩⟩
    rw [count_delete]
    exact after.2

end Host

end NetLabs.Ctcp
