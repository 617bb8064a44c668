/-
NetLabs.Ctcp.MainLoop — `do_loop` of `lab3/ctcp_sys_internal.c`, with all
connections of a client or a server.

One iteration looks at the input, at the output, at the programs a server
runs, at the socket and at the timer, and calls the callbacks of the
connections concerned. `ctcp_destroy` frees the state of a connection at once
and only marks the connection object, which `delete_all_connections` frees at
the end of the iteration. Whatever meets the object before can still find the
state, and nothing but `conn_drain` looks at the mark: a packet that arrives
in the iteration in which the end of input destroyed its connection is given
to a freed state. The other misuse is in `ctcp_timer`, which steps on from
the state it has just destroyed. A client does neither, since `ctcp_destroy`
ends it.

Every use of a state or of its connection object is checked (`Connection.use`),
and an iteration that uses a destroyed one ends with `Halt.misuse`. `Safe`
says when it does not, and it is exact (`no_use_after_destroy`).

What `poll` reports is arbitrary, and so is what the calls of `conn_input`
return (`ConnInput` is about that) and which connections `conn_drain` writes
something for. Left out is the write through `conn->prev` of the most recent
connection: it is the address of a variable of `conn_add`, which has returned.
-/
import NetLabs.Lib.Outcome
import NetLabs.Ctcp.Datagram
import NetLabs.Ctcp.Teardown

namespace NetLabs.Ctcp

open NetLabs.Lib Relation

/-! ## Packets -/

/-- `FULL_HDR_SIZE`. -/
def fullHdrSize : Nat := ipHdrSize + tcpHdrSize

def thSyn : UInt8 := 0x02
def thRst : UInt8 := 0x04

/-- The fields of a packet that `recv_filter` and `tcp_new_connection` read. -/
structure Packet where
  saddr : UInt32
  thSport : UInt16
  thDport : UInt16
  thSeq : UInt32
  thAck : UInt32
  thFlags : UInt8
  window : UInt16

/-- The headers at the start of what was received. -/
def packetOf (buf : List UInt8) : Packet where
  saddr := ofBe32 (slice buf 12 4)
  thSport := ofBe16 (slice buf ipHdrSize 2)
  thDport := ofBe16 (slice buf (ipHdrSize + 2) 2)
  thSeq := ofBe32 (slice buf (ipHdrSize + 4) 4)
  thAck := ofBe32 (slice buf (ipHdrSize + 8) 4)
  thFlags := (slice buf (ipHdrSize + 13) 1).headD 0
  window := ofBe16 (slice buf (ipHdrSize + 14) 2)

/-! ## The process -/

/-- A connection object, with the state `conn->state` points to. The state is
not `alive` once it has been freed. -/
structure Connection where
  /-- its number among the connections of the process -/
  id : Nat
  conn : Conn
  state : CtcpState
  readEof : Bool
  deleteMe : Bool

/-- The constants of the process, and what it meets: the environment of each
connection, the memory of its `bbr` record and its random initial sequence
number. -/
structure Host where
  /-- `SERVER` -/
  server : Bool
  config : Settings
  rtTimeout : Int
  env : Nat → Env
  block : Nat → Bbr
  isn : Nat → UInt32

/-- What `do_loop` carries from one iteration to the next. -/
structure Loop where
  /-- the list at `get_connections()`, the most recent connection first -/
  connections : List Connection
  /-- connections that fell out of this list, whose states are still in
  `state_list` -/
  lost : List Connection
  /-- `num_connected` -/
  numConnected : Nat
  /-- `new_connection` -/
  newConnection : UInt16

/-- What the calls of `conn_input` by one `ctcp_read` return: these blocks,
and then -1 or 0. -/
structure Input where
  blocks : List Block
  eof : Bool

/-- What an iteration finds. -/
structure Polled where
  /-- input from stdin -/
  stdin : Option Input
  /-- whether `conn_drain` writes something for the connection -/
  outputted : Nat → Bool
  /-- output of the program of the connection -/
  program : Nat → Option Input
  /-- what `recv` stores -/
  packet : Option (List UInt8)
  /-- `need_timer_in` returns 0 -/
  timer : Bool

/-- How a connection is used. -/
inductive Use where
  /-- a callback is invoked with the state -/
  | ctcpRead
  | ctcpReceive
  | ctcpOutput
  /-- `conn_input` is called for it -/
  | connInput
  /-- `ctcp_timer` comes to it -/
  | ctcpTimer
  /-- `ctcp_timer` reads `curr_state->next` -/
  | next
  deriving DecidableEq, Repr

/-- Why an iteration does not come to its end. -/
inductive Halt where
  /-- a destroyed connection is used -/
  | misuse (use : Use) (id : Nat)
  /-- the process ends -/
  | exit
  /-- `ctcp_read` does not return -/
  | hang
  deriving DecidableEq, Repr

/-- The use of a connection. -/
def Connection.use (c : Connection) (u : Use) : Except Halt Unit :=
  if c.state.alive then .ok () else .error (.misuse u c.id)

/-- The calls of one `ctcp_read`. -/
def Input.calls (i : Input) : List Call := i.blocks.map Call.block ++ if i.eof then [.eof] else []

namespace Host

variable (h : Host)

/-! ## Callbacks -/

/-- A call for a connection. Where it destroys the state, `conn_remove` sets
`delete_me`, and `end_client` ends a client. -/
def callback (u : Use) (c : Connection) (call : Call) : Except Halt Connection := do
  c.use u
  match c.state.call (h.env c.id) call with
  | none => .error .hang
  | some t =>
      if t.alive then .ok { c with state := t }
      else if h.server then .ok { c with state := t, deleteMe := true }
      else .error .exit

/-- `ctcp_read(conn->state)`. After the end of input `conn_input` returns -1
at once. -/
def ctcpRead (c : Connection) (i : Input) : Except Halt Connection := do
  c.use .ctcpRead
  let i : Input := if c.readEof then ⟨[], true⟩ else i
  i.calls.foldlM (h.callback .connInput) { c with readEof := c.readEof || i.eof }

/-- Input from stdin goes to the most recent connection. -/
def readStdin (p : Polled) : List Connection → Except Halt (List Connection)
  | [] => .ok []
  | c :: rest =>
      match p.stdin with
      | some i =>
          if h.config.runProgram then .ok (c :: rest) else (· :: rest) <$> h.ctcpRead c i
      | none => .ok (c :: rest)

/-- `conn_drain(conn)`. -/
def connDrain (p : Polled) (c : Connection) : Except Halt Connection :=
  if p.outputted c.id && !c.deleteMe then h.callback .ctcpOutput c .output else .ok c

/-- "Poll for output received from running programs." -/
def readProgram (p : Polled) (c : Connection) : Except Halt Connection :=
  match p.program c.id with
  | some i => if h.config.runProgram then h.ctcpRead c i else .ok c
  | none => .ok c

/-- The iteration up to the socket. -/
def inputs (p : Polled) (l : Loop) : Except Halt Loop := do
  let connections ← h.readStdin p l.connections
  let connections ← connections.mapM (h.connDrain p)
  let connections ← connections.mapM (h.readProgram p)
  return { l with connections }

/-! ## The socket -/

/-- The test of `recv_filter` for a packet of this connection. -/
def matching (packet : Packet) (c : Connection) : Bool :=
  c.conn.port == (packet.thSport.toNat : Int) &&
    (h.config.unixSocket || c.conn.ipAddr == packet.saddr) &&
    decide (c.conn.theirInitSeqno ≤ packet.thSeq) && decide (c.conn.initSeqno ≤ packet.thAck)

/-- `recv_filter(sockfd, buf, len, flags, rconn)`: its result and `*rconn`. -/
def recvFilter (connections : List Connection) (buf : List UInt8) :
    Except Halt (Nat × Option Connection) :=
  let packet := packetOf buf
  if buf.length < fullHdrSize then .ok (0, none)
  else if packet.thDport ≠ UInt16.ofInt h.config.port then .ok (0, none)
  else if packet.thFlags &&& thRst ≠ 0 then .error .exit
  else if packet.thFlags &&& thSyn ≠ 0 then .ok (buf.length, none)
  else
    match connections.find? (h.matching packet) with
    | some c => .ok (buf.length, some c)
    | none => .ok (0, none)

/-- The segment `convert_to_ctcp` makes of a packet for a connection. -/
def segment (c : Connection) (buf : List UInt8) : CtcpSegment :=
  convertToCtcp (h.env c.id).endian c.conn buf

/-- "an ACK from a new connection" -/
def isHandshakeAck (l : Loop) (c : Connection) (buf : List UInt8) : Prop :=
  (packetOf buf).thSport = l.newConnection ∧ (h.segment c buf).flags &&& thAck ≠ 0 ∧
    (h.segment c buf).seqno = 1 ∧ (h.segment c buf).ackno = 1

instance (l : Loop) (c : Connection) (buf : List UInt8) : Decidable (h.isHandshakeAck l c buf) :=
  inferInstanceAs (Decidable (_ ∧ _))

/-- `MAX_NUM_CLIENTS`. -/
def maxNumClients : Nat := 10

/-- `tcp_new_connection(pkt)` and what `do_loop` does with it. -/
def tcpNewConnection (l : Loop) (packet : Packet) : Loop :=
  if h.server ∧ l.numConnected < maxNumClients then
    let id := l.numConnected
    let conn : Connection :=
      { id
        conn :=
          { ipAddr := packet.saddr
            port := packet.thSport.toNat
            initSeqno := h.isn id
            theirInitSeqno := packet.thSeq }
        state := ctcpInit (h.env id) (h.block id) ⟨packet.window, h.rtTimeout⟩
        readEof := false
        deleteMe := false }
    { l with
      connections := conn :: l.connections
      numConnected := l.numConnected + 1
      newConnection := packet.thSport }
  else l

/-- "Receive packet on socket from other hosts." -/
def receive (p : Polled) (l : Loop) : Except Halt Loop :=
  match p.packet with
  | none => .ok l
  | some buf => do
      let (len, conn) ← h.recvFilter l.connections buf
      if len < fullHdrSize then .ok l
      else
        match conn with
        | some c =>
            if h.isHandshakeAck l c buf then .ok { l with newConnection := 0 }
            else do
              let c' ← h.callback .ctcpReceive c (.receive (h.segment c buf))
              let update (x : Connection) := if x.id = c.id then c' else x
              .ok { l with connections := l.connections.map update }
        | none =>
            .ok (if (packetOf buf).thFlags &&& thSyn ≠ 0 then h.tcpNewConnection l (packetOf buf)
              else l)

/-! ## The timer -/

/-- `ctcp_timer()` at a connection. A state that was destroyed before is not
in `state_list`. -/
def timerVisit (c : Connection) : Except Halt Connection :=
  if c.state.alive then do
    let c ← h.callback .ctcpTimer c .timer
    -- `curr_state=curr_state->next`, whether or not the state is still there
    c.use .next
    .ok c
  else .ok c

/-- "Check if timer is up." -/
def checkTimer (p : Polled) (l : Loop) : Except Halt Loop :=
  if p.timer then do
    let connections ← l.connections.mapM h.timerVisit
    let lost ← l.lost.mapM h.timerVisit
    .ok { l with connections, lost }
  else .ok l

/-! ## An iteration -/

/-- `delete_all_connections()`. Where `conn_free` frees the first connection of
the list, it sets the list to `NULL`. -/
def deleteAllConnections (l : Loop) : Loop :=
  let kept := l.connections.filter fun c => !c.deleteMe
  if l.connections.head?.any Connection.deleteMe then
    { l with connections := [], lost := kept ++ l.lost }
  else { l with connections := kept }

/-- An iteration of `do_loop()`. -/
def doLoop (l : Loop) (p : Polled) : Except Halt Loop := do
  let l ← h.inputs p l
  let l ← h.receive p l
  let l ← h.checkTimer p l
  return deleteAllConnections l

/-- A server before its first client connects, or a client connected to its
server. -/
def start (conn : Conn) (config : CtcpConfig) : Loop where
  connections :=
    if h.server then []
    else [⟨0, conn, ctcpInit (h.env 0) (h.block 0) config, false, false⟩]
  lost := []
  numConnected := 0
  newConnection := 0

end Host

/-! ## Inside a callback -/

section Callback

variable {env : Env}

/-- An elementary step of a connection that is not destroyed. -/
inductive LiveStep (env : Env) : CtcpState → CtcpState → Prop where
  | micro {half : Half} {s t : CtcpState} (alive : s.alive = true) (step : Micro env half s t) :
      LiveStep env s t
  | enqueue (s : CtcpState) (data : List UInt8) (flags : Int) (alive : s.alive = true) :
      LiveStep env s (s.enqueue env data flags)

/-- No step brings a connection back. -/
theorem micro_alive {half : Half} {s t : CtcpState} (h : Micro env half s t)
    (alive : t.alive = true) : s.alive = true := by
  cases h with
  | tune tuned =>
    obtain ⟨_, _, _, _, _, _, _, rfl⟩ := tuned
    exact alive
  | destroy => cases alive
  | control | admitted | limit | transmit | remove | retransmit | recordSeqno | output | fin =>
    exact alive

/-- Steps that leave the connection alive are steps of a live connection. -/
theorem micros_live {s t : CtcpState} (h : Micros env s t) (alive : t.alive = true) :
    ReflTransGen (LiveStep env) s t := by
  induction h with
  | refl => exact .refl
  | tail _ hstep ih =>
    obtain ⟨_, hstep⟩ := hstep
    have before := micro_alive hstep alive
    exact (ih before).tail (.micro before hstep)

theorem run_live {s t : CtcpState} {ops : List Op} (h : Run (Step env) s ops t)
    (alive : t.alive = true) : ReflTransGen (LiveStep env) s t := by
  refine Run.history (fun _ t => t.alive = true → ReflTransGen (LiveStep env) s t)
    (fun _ => .refl) (fun {ops t op u} _ ih hstep alive => ?_) h alive
  obtain ⟨before, rfl⟩ := hstep
  refine (ih before).trans ?_
  obtain ⟨data, flags, rfl, chain⟩ | ⟨-, chain⟩ := apply_micro env t op
  · exact .head (.enqueue t data.1 flags before) (micros_live chain alive)
  · exact micros_live chain alive

/-- Destroying a live connection is its last step. -/
theorem destroy_live {s t : CtcpState} (h : Micros env s t) (alive : t.alive = true) :
    ReflTransGen (LiveStep env) s t.destroy :=
  (micros_live h alive).tail (.micro alive (.destroy t))

theorem retransmitLoop_live (visited rest : List Buf) (s : CtcpState)
    (h : s.unacknowledgedSegments = visited ++ rest) (alive : s.alive = true) :
    ReflTransGen (LiveStep env) s (CtcpState.retransmitLoop env visited rest s) := by
  induction rest generalizing visited s with
  | nil => exact .refl
  | cons b rest ih =>
    have tick : LiveStep env s { s with ticks := s.ticks + 1 } :=
      .micro alive (.tune (tuned_tick s))
    rw [CtcpState.retransmitLoop]
    split
    · rename_i due
      have resent : LiveStep env s (s.retransmitOne env visited b rest) :=
        .micro alive (.retransmit h due)
      split
      · exact .head resent (destroy_live .refl alive)
      · exact .head resent (ih _ _ (by simp [CtcpState.retransmitOne, CtcpState.log]) alive)
    · split
      · exact .head tick (destroy_live .refl alive)
      · exact .head tick (ih _ _ (by simp [h]) alive)

/-- Whatever a callback does, it does before the connection is destroyed. -/
theorem call_live {s t : CtcpState} {c : Call} (h : CallStep env s c t) :
    ReflTransGen (LiveStep env) s t := by
  obtain ⟨alive, hcall⟩ := h
  have control (flags : Int) : Micros env s (s.sendSegment env [] flags false) :=
    .single ⟨_, .control s flags⟩
  cases c with
  | block b =>
    obtain ⟨pieces, run, same, -⟩ := call_block ⟨alive, hcall⟩
    exact run_live run (same.alive.trans alive)
  | eof =>
    obtain rfl := Option.some_inj.mp hcall
    rw [CtcpState.readEof]
    split
    · exact .refl
    · split
      · exact micros_live (control _) alive
      · exact destroy_live (control _) alive
  | receive seg =>
    obtain rfl := Option.some_inj.mp hcall
    by_cases closed : s.connectionState = 1
    · rw [receive_closed env closed]
      exact destroy_live .refl alive
    · exact micros_live (receive_micro s seg) ((receive_alive s seg closed).trans alive)
  | output =>
    obtain rfl := Option.some_inj.mp hcall
    exact micros_live (control _) alive
  | timer =>
    obtain rfl := Option.some_inj.mp hcall
    have tuned : Tuned s (s.timerBbr env) := tuned_timerBbr s
    exact .head (.micro alive (.tune tuned))
      (retransmitLoop_live [] _ _ rfl (tuned.alive.trans alive))

/-! ## When the timer destroys -/

/-- The retransmission loop comes to a segment that was sent 5 times, from
this reading of the clock on. -/
def GivesUpFrom (env : Env) (timeout : Int) : Nat → List Buf → Prop
  | _, [] => False
  | ticks, b :: rest =>
      if env.clock ticks - b.sentAt > timeout ∧ b.retransmissions < 5 then
        b.retransmissions + 1 ≥ 5 ∨ GivesUpFrom env timeout (ticks + 2) rest
      else b.retransmissions ≥ 5 ∨ GivesUpFrom env timeout (ticks + 1) rest

/-- `ctcp_timer` finds the other side unresponsive: a segment it retransmits
for the fifth time. -/
def CtcpState.GivesUp (env : Env) (s : CtcpState) : Prop :=
  let t := s.timerBbr env
  GivesUpFrom env t.rtTimeout t.ticks t.unacknowledgedSegments

theorem retransmitLoop_alive_iff (visited rest : List Buf) (s : CtcpState)
    (alive : s.alive = true) :
    (CtcpState.retransmitLoop env visited rest s).alive = true ↔
      ¬ GivesUpFrom env s.rtTimeout s.ticks rest := by
  induction rest generalizing visited s with
  | nil => exact iff_of_true alive id
  | cons b rest ih =>
    rw [CtcpState.retransmitLoop, GivesUpFrom]
    by_cases due : s.isDue env b
    · have due' := due
      rw [CtcpState.isDue] at due'
      rw [if_pos due, if_pos due', not_or]
      by_cases last : b.retransmissions + 1 ≥ 5
      · rw [if_pos last]
        exact iff_of_false Bool.false_ne_true fun h => h.1 last
      · rw [if_neg last, and_iff_right last]
        exact ih _ (s.retransmitOne env visited b rest) alive
    · have due' := due
      rw [CtcpState.isDue] at due'
      rw [if_neg due, if_neg due', not_or]
      by_cases given : b.retransmissions ≥ 5
      · rw [if_pos given]
        exact iff_of_false Bool.false_ne_true fun h => h.1 given
      · rw [if_neg given, and_iff_right given]
        exact ih _ { s with ticks := s.ticks + 1 } alive

theorem timer_alive_iff {s : CtcpState} (alive : s.alive = true) :
    (s.timer env).alive = true ↔ ¬ s.GivesUp env :=
  retransmitLoop_alive_iff [] _ _ ((tuned_timerBbr s).alive.trans alive)

end Callback

/-! ## The condition -/

/-- The iteration ends, or the process does, without a misuse. -/
def Halt.Regular : Halt → Prop
  | .misuse _ _ => False
  | .exit | .hang => True

namespace Host

variable (h : Host)

/-- A packet is for a connection without `delete_me`, and on a server the
timer finds no connection unresponsive. -/
def Safe (l : Loop) (p : Polled) : Prop :=
  (∀ l', h.inputs p l = .ok l' → ∀ buf, p.packet = some buf →
    ∀ len c, h.recvFilter l'.connections buf = .ok (len, some c) →
      ¬ h.isHandshakeAck l' c buf → c.deleteMe = false) ∧
  (h.server = true → p.timer = true → ∀ l', h.inputs p l >>= h.receive p = .ok l' →
    ∀ c ∈ l'.connections ++ l'.lost, c.state.alive = true → ¬ c.state.GivesUp (h.env c.id))

end Host

/-! ## Callbacks and their marks -/

namespace Connection

/-- `delete_me` tells that the state was freed. -/
def Marked (c : Connection) : Prop := c.deleteMe = !c.state.alive

/-- The connection is not destroyed, and its mark says so. -/
structure Alive (c : Connection) : Prop where
  state : c.state.alive = true
  mark : c.deleteMe = false

theorem Alive.marked {c : Connection} (a : c.Alive) : c.Marked := by
  rw [Marked, a.state, a.mark]
  rfl

theorem Marked.alive {c : Connection} (m : c.Marked) (unmarked : c.deleteMe = false) :
    c.Alive := by
  rw [Marked, unmarked] at m
  exact ⟨by simpa using m.symm, unmarked⟩

end Connection

namespace Host

variable {h : Host} {u : Use} {c : Connection}

/-- A live connection is used, and no other. -/
theorem ends_use {P : Unit → Prop} :
    Ends Halt.Regular P (c.use u) ↔ c.state.alive = true ∧ P () := by
  rw [Connection.use]
  cases c.state.alive <;> simp [Halt.Regular]

/-- A callback on a live connection is a call of its state, and sets the mark
if it destroys it. -/
theorem callback_ends (alive : c.Alive) {call : Call} :
    Ends Halt.Regular
      (fun c' => c'.Marked ∧ CallStep (h.env c.id) c.state call c'.state)
      (h.callback u c call) := by
  rw [callback, ends_bind, ends_use]
  refine ⟨alive.state, ?_⟩
  split
  · trivial
  · rename_i t hcall
    split
    · rename_i live
      exact ⟨Connection.Alive.marked ⟨live, alive.mark⟩, alive.state, hcall⟩
    · rename_i dead
      split
      · refine ⟨?_, alive.state, hcall⟩
        simp only [Connection.Marked, Bool.not_eq_true _ ▸ dead, Bool.not_false]
      · trivial

/-- A call that destroys nothing leaves the connection alive. -/
theorem callback_alive (alive : c.Alive) {call : Call}
    (survives : ∀ t, CallStep (h.env c.id) c.state call t → t.alive = true) :
    Ends Halt.Regular Connection.Alive (h.callback u c call) := by
  refine (callback_ends alive).imp fun c' ⟨marked, hcall⟩ => ?_
  have live := survives _ hcall
  rw [Connection.Marked, live] at marked
  exact ⟨live, marked⟩

/-- Before the end of input `ctcp_read` destroys nothing. -/
theorem ctcpRead_ends (alive : c.Alive) (i : Input) :
    Ends Halt.Regular Connection.Marked (h.ctcpRead c i) := by
  rw [ctcpRead, ends_bind, ends_use]
  refine ⟨alive.state, ?_⟩
  dsimp only
  generalize (if c.readEof = true then (⟨[], true⟩ : Input) else i) = input
  rw [Input.calls, List.foldlM_append, ends_bind]
  have blocks : Ends Halt.Regular Connection.Alive
      ((input.blocks.map Call.block).foldlM (h.callback .connInput)
        { c with readEof := c.readEof || input.eof }) := by
    refine Ends.foldlM (fun c call hcall alive => ?_) ⟨alive.state, alive.mark⟩
    obtain ⟨b, -, rfl⟩ := List.mem_map.mp hcall
    refine callback_alive alive fun t hstep => ?_
    obtain ⟨_, -, same, -⟩ := call_block hstep
    exact same.alive.trans hstep.1
  refine blocks.imp fun c alive => ?_
  split
  · rw [List.foldlM_cons, ends_bind]
    exact (callback_ends alive).imp fun c' h => h.1
  · exact alive.marked

/-- `conn_drain` looks at the mark. -/
theorem connDrain_ends (p : Polled) :
    (c.Alive → Ends Halt.Regular Connection.Alive (h.connDrain p c)) ∧
      (c.Marked → Ends Halt.Regular Connection.Marked (h.connDrain p c)) := by
  have drains (alive : c.Alive) : Ends Halt.Regular Connection.Alive (h.connDrain p c) := by
    rw [connDrain]
    split
    · refine callback_alive alive fun t hstep => ?_
      obtain rfl := Option.some_inj.mp hstep.2
      exact hstep.1
    · exact alive
  refine ⟨drains, fun marked => ?_⟩
  cases mark : c.deleteMe with
  | false => exact (drains (marked.alive mark)).imp fun _ => Connection.Alive.marked
  | true =>
    rw [connDrain, mark, if_neg (by simp)]
    exact marked

/-! ## The parts of an iteration -/

/-- A server that runs programs does not read stdin. -/
theorem readStdin_programs (p : Polled) (programs : h.config.runProgram = true)
    (cs : List Connection) :
    h.readStdin p cs = .ok cs := by
  cases cs with
  | nil => rfl
  | cons c rest =>
    rw [readStdin]
    split
    · rw [if_pos programs]
    · rfl

theorem readStdin_ends (p : Polled) {cs : List Connection} (alive : ∀ c ∈ cs, c.Alive) :
    Ends Halt.Regular (fun cs' => ∀ c ∈ cs', c.Marked) (h.readStdin p cs) := by
  cases cs with
  | nil =>
    rw [readStdin, ends_ok]
    exact fun c hc => absurd hc List.not_mem_nil
  | cons c rest =>
    have unread : ∀ d ∈ c :: rest, d.Marked := fun d hd => (alive d hd).marked
    rw [List.forall_mem_cons] at unread
    rw [readStdin]
    split
    · rw [ends_ite, ends_map]
      refine ⟨fun _ => List.forall_mem_cons.mpr unread, fun _ => ?_⟩
      exact (ctcpRead_ends (alive c List.mem_cons_self) _).imp fun c' marked =>
        List.forall_mem_cons.mpr ⟨marked, unread.2⟩
    · exact List.forall_mem_cons.mpr unread

theorem readProgram_ends (p : Polled) (alive : c.Alive) :
    Ends Halt.Regular Connection.Marked (h.readProgram p c) := by
  rw [readProgram]
  split
  · rw [ends_ite]
    exact ⟨fun _ => ctcpRead_ends alive _, fun _ => alive.marked⟩
  · exact alive.marked

theorem readProgram_off (p : Polled) (off : ¬ h.config.runProgram = true) :
    h.readProgram p c = .ok c := by
  rw [readProgram]
  split
  · rw [if_neg off]
  · rfl

/-- Up to the socket a connection is destroyed at its last use: stdin is read
if there are no programs, and no program is read twice. -/
theorem inputs_ends (p : Polled) {l : Loop} (alive : ∀ c ∈ l.connections, c.Alive) :
    Ends Halt.Regular (fun l' => (∀ c ∈ l'.connections, c.Marked) ∧ l'.lost = l.lost)
      (h.inputs p l) := by
  simp only [inputs, ends_bind, ends_pure, and_true]
  by_cases programs : h.config.runProgram = true
  · rw [readStdin_programs p programs, ends_ok]
    refine (Ends.mapM fun c hc => (connDrain_ends p).1 (alive c hc)).imp fun cs alive => ?_
    exact Ends.mapM fun c hc => readProgram_ends p (alive c hc)
  · refine (readStdin_ends p alive).imp fun cs marked => ?_
    refine (Ends.mapM fun c hc => (connDrain_ends p).2 (marked c hc)).imp fun cs marked => ?_
    refine Ends.mapM fun c hc => ?_
    rw [readProgram_off p programs]
    exact marked c hc

/-- What `recv_filter` finds is in the list, and the packet is long enough. -/
theorem recvFilter_some {cs : List Connection} {buf : List UInt8} {len : Nat}
    (found : h.recvFilter cs buf = .ok (len, some c)) : c ∈ cs ∧ fullHdrSize ≤ len := by
  rw [recvFilter] at found
  split_ifs at found with short
  · cases found
  · cases found
  · cases found
  · split at found
    · rename_i d hd
      obtain ⟨rfl, hc⟩ := Prod.mk.inj (Except.ok.inj found)
      obtain rfl := Option.some_inj.mp hc
      exact ⟨List.mem_of_find?_eq_some hd, Nat.le_of_not_lt short⟩
    · cases found

theorem recvFilter_regular (cs : List Connection) (buf : List UInt8) :
    Ends Halt.Regular (fun _ => True) (h.recvFilter cs buf) := by
  simp only [recvFilter, ends_ite, ends_ok, ends_error, Halt.Regular, implies_true, true_and]
  intros
  split <;> trivial

/-- A packet does no harm exactly if the connection it is for is alive. -/
theorem receive_iff (p : Polled) (l : Loop) :
    Ends Halt.Regular (fun _ => True) (h.receive p l) ↔
      ∀ buf, p.packet = some buf → ∀ len c, h.recvFilter l.connections buf = .ok (len, some c) →
        ¬ h.isHandshakeAck l c buf → c.state.alive = true := by
  rw [receive]
  cases packet : p.packet with
  | none => simp
  | some buf =>
    simp only [ends_bind, Option.some.injEq, forall_eq']
    rw [ends_true_and, and_iff_right (recvFilter_regular _ _)]
    constructor
    · intro ends len c found notAck
      have := ends _ found
      rw [if_neg (recvFilter_some found).2.not_gt] at this
      dsimp only at this
      rw [if_neg notAck, callback, ends_bind, ends_bind, ends_use] at this
      exact this.1
    · rintro safe ⟨len, conn⟩ found
      dsimp only
      split
      · trivial
      · split
        · rename_i c
          split
          · trivial
          · rename_i notAck
            have alive := safe _ _ found notAck
            rw [callback, ends_bind, ends_bind, ends_use]
            refine ⟨alive, ?_⟩
            split
            · trivial
            · split
              · trivial
              · split <;> trivial
        · trivial

/-- A call never leaves a mark wrong. -/
theorem callback_marked (marked : c.Marked) {call : Call} {c' : Connection}
    (called : h.callback u c call = .ok c') : c'.Marked := by
  by_cases live : c.state.alive = true
  · have alive : c.Alive := ⟨live, by rw [marked, live]; rfl⟩
    exact ((callback_ends alive).returned called).1
  · rw [callback, Connection.use, if_neg live] at called
    cases called

theorem receive_marked (p : Polled) {l l' : Loop} (marked : ∀ c ∈ l.connections, c.Marked)
    (received : h.receive p l = .ok l') : (∀ c ∈ l'.connections, c.Marked) ∧ l'.lost = l.lost := by
  suffices Ends (fun _ => True) (fun l' => (∀ c ∈ l'.connections, c.Marked) ∧ l'.lost = l.lost)
      (h.receive p l) from this.returned received
  rw [receive]
  split
  · exact ⟨marked, rfl⟩
  · rename_i buf packet
    rw [ends_bind, ends_returned]
    rintro ⟨len, conn⟩ found
    dsimp only
    split
    · exact ⟨marked, rfl⟩
    · split
      · rename_i c
        split
        · exact ⟨marked, rfl⟩
        · rw [ends_bind, ends_returned]
          intro c' called
          refine ⟨?_, rfl⟩
          intro x hx
          obtain ⟨y, hy, rfl⟩ := List.mem_map.mp hx
          split
          · exact callback_marked (marked c (recvFilter_some found).1) called
          · exact marked y hy
      · split
        · rw [ends_ok, tcpNewConnection]
          split
          · exact ⟨List.forall_mem_cons.mpr ⟨rfl, marked⟩, rfl⟩
          · exact ⟨marked, rfl⟩
        · exact ⟨marked, rfl⟩

/-! ## The timer -/

/-- On a client the timer uses nothing it destroyed. -/
theorem timerVisit_client (client : h.server = false) :
    Ends Halt.Regular (fun _ => True) (h.timerVisit c) := by
  rw [timerVisit]
  split
  · rename_i live
    simp only [callback, ends_bind, ends_use, ends_ok, and_true]
    refine ⟨live, ?_⟩
    split
    · trivial
    · split
      · rename_i t _ alive
        exact alive
      · rw [client]
        trivial
  · trivial

/-- On a server a visit that destroys the state is a misuse, and nothing else
stops the timer. -/
theorem timerVisit_server (server : h.server = true) :
    (Ends Halt.Regular (fun _ => True) (h.timerVisit c) ↔
      (c.state.alive = true → ¬ c.state.GivesUp (h.env c.id))) ∧
    ∀ e, h.timerVisit c = .error e → ¬ e.Regular := by
  rw [timerVisit]
  by_cases live : c.state.alive = true
  · rw [if_pos live, ← timer_alive_iff live, forall_prop_of_true live]
    have visit : h.callback .ctcpTimer c .timer =
        if (c.state.timer (h.env c.id)).alive then
          .ok { c with state := c.state.timer (h.env c.id) }
        else .ok { c with state := c.state.timer (h.env c.id), deleteMe := true } := by
      simp only [callback, Connection.use, live, CtcpState.call, server, if_true]
      rfl
    rw [visit]
    by_cases alive : (c.state.timer (h.env c.id)).alive = true
    · rw [if_pos alive]
      simp [Connection.use, alive, bind, Except.bind]
    · rw [if_neg alive]
      simp [Connection.use, alive, bind, Except.bind, Halt.Regular]
  · rw [if_neg live]
    exact ⟨iff_of_true trivial fun h => absurd h live, nofun⟩

/-- What a visit leaves behind is as alive as before. -/
theorem timerVisit_ok (marked : c.Marked) :
    Ends (fun _ => True) (fun c' => c'.Marked ∧ (c.Alive → c'.Alive)) (h.timerVisit c) := by
  rw [timerVisit]
  split
  · rw [ends_bind, ends_returned]
    intro c' called
    have marked' := callback_marked marked called
    rw [ends_bind, Connection.use]
    split
    · rename_i live
      refine ⟨marked', fun _ => ⟨live, ?_⟩⟩
      rw [marked', live]
      rfl
    · trivial
  · rename_i dead
    exact ⟨marked, fun alive => absurd alive.state dead⟩

theorem checkTimer_iff (p : Polled) (l : Loop) :
    Ends Halt.Regular (fun _ => True) (h.checkTimer p l) ↔
      (h.server = true → p.timer = true → ∀ c ∈ l.connections ++ l.lost,
        c.state.alive = true → ¬ c.state.GivesUp (h.env c.id)) := by
  rw [checkTimer]
  by_cases due : p.timer = true
  · rw [if_pos due, forall_prop_of_true due]
    simp only [ends_bind, ends_ok]
    rw [ends_true_and]
    cases server : h.server with
    | false =>
      have visits (cs : List Connection) :
          Ends Halt.Regular (fun _ => True) (cs.mapM h.timerVisit) :=
        (Ends.mapM fun c _ => timerVisit_client server).imp fun _ _ => trivial
      exact iff_of_true ⟨visits _, fun _ _ => visits _⟩ fun h => absurd h Bool.false_ne_true
    | true =>
      have visits (cs : List Connection) :
          Ends Halt.Regular (fun _ => True) (cs.mapM h.timerVisit) ↔
            ∀ c ∈ cs, c.state.alive = true → ¬ c.state.GivesUp (h.env c.id) := by
        rw [ends_mapM_iff fun c _ => (timerVisit_server server).2]
        exact forall₂_congr fun c _ => (timerVisit_server server).1
      rw [forall_prop_of_true rfl, List.forall_mem_append, ← visits, ← visits]
      refine ⟨fun h => ⟨h.1, ?_⟩, fun h => ⟨h.1, fun _ _ => h.2⟩⟩
      obtain ⟨first, rest⟩ := h
      -- nothing but a misuse stops the first part of the traversal
      have bad : Ends (fun e => ¬ e.Regular) (fun _ => True) (l.connections.mapM h.timerVisit) :=
        (Ends.mapM fun c _ => ends_iff.mpr
          ⟨(timerVisit_server server).2, fun _ _ => trivial⟩).imp fun _ _ => trivial
      cases visited : l.connections.mapM h.timerVisit with
      | error e =>
        rw [visited] at first bad
        exact absurd first bad
      | ok cs => exact rest cs visited
  · rw [if_neg due]
    exact iff_of_true trivial fun _ timer => absurd timer due

theorem checkTimer_ok (p : Polled) {l l' : Loop} (marked : ∀ c ∈ l.connections, c.Marked)
    (lost : ∀ c ∈ l.lost, c.Alive) (checked : h.checkTimer p l = .ok l') :
    (∀ c ∈ l'.connections, c.Marked) ∧ ∀ c ∈ l'.lost, c.Alive := by
  suffices Ends (fun _ => True)
      (fun l' => (∀ c ∈ l'.connections, c.Marked) ∧ ∀ c ∈ l'.lost, c.Alive) (h.checkTimer p l) from
    this.returned checked
  rw [checkTimer]
  split
  · simp only [ends_bind, ends_ok]
    refine (Ends.mapM fun c hc => (timerVisit_ok (marked c hc)).imp fun _ h => h.1).imp
      fun cs marked => ?_
    refine (Ends.mapM fun c hc => (timerVisit_ok (lost c hc).marked).imp
      fun _ h => h.2 (lost c hc)).imp fun cs' alive => ⟨marked, alive⟩
  · exact ⟨marked, lost⟩

/-! ## Runs of the loop -/

/-- Between two iterations no connection is destroyed. -/
structure LoopInv (l : Loop) : Prop where
  connections : ∀ c ∈ l.connections, c.Alive
  lost : ∀ c ∈ l.lost, c.Alive

theorem loopInv_start (conn : Conn) (config : CtcpConfig) : LoopInv (h.start conn config) := by
  constructor
  · intro c hc
    rw [start] at hc
    split at hc
    · exact absurd hc List.not_mem_nil
    · obtain rfl := List.mem_singleton.mp hc
      exact ⟨rfl, rfl⟩
  · exact List.forall_mem_nil _

theorem loopInv_delete {l : Loop} (marked : ∀ c ∈ l.connections, c.Marked)
    (lost : ∀ c ∈ l.lost, c.Alive) : LoopInv (deleteAllConnections l) := by
  have kept : ∀ c ∈ l.connections.filter fun c => !c.deleteMe, c.Alive := by
    intro c hc
    obtain ⟨mem, unmarked⟩ := List.mem_filter.mp hc
    exact (marked c mem).alive (by simpa using unmarked)
  rw [deleteAllConnections]
  split
  · constructor
    · exact List.forall_mem_nil _
    · intro c hc
      exact (List.mem_append.mp hc).elim (kept c) (lost c)
  · exact ⟨kept, lost⟩

theorem loopInv_step {l l' : Loop} {p : Polled} (inv : LoopInv l)
    (step : h.doLoop l p = .ok l') : LoopInv l' := by
  suffices Ends (fun _ => True) LoopInv (h.doLoop l p) from this.returned step
  simp only [doLoop, ends_bind, ends_pure, ends_returned]
  intro l₁ input l₂ received l₃ checked
  obtain ⟨marked₁, lost₁⟩ := (inputs_ends p inv.connections).returned input
  obtain ⟨marked₂, lost₂⟩ := receive_marked p marked₁ received
  have alive : ∀ c ∈ l₂.lost, c.Alive := by
    rw [lost₂, lost₁]
    exact inv.lost
  obtain ⟨marked₃, lost₃⟩ := checkTimer_ok p marked₂ alive checked
  exact loopInv_delete marked₃ lost₃

/-- An iteration uses no destroyed connection exactly if it is `Safe`. -/
theorem doLoop_iff {l : Loop} (inv : LoopInv l) (p : Polled) :
    Ends Halt.Regular (fun _ => True) (h.doLoop l p) ↔ h.Safe l p := by
  have input := inputs_ends (h := h) p inv.connections
  simp only [doLoop, ends_bind, ends_pure]
  rw [ends_true_and, and_iff_right (input.imp fun _ _ => trivial), Safe]
  have parts : ∀ l₁, h.inputs p l = .ok l₁ →
      (Ends Halt.Regular (fun l₂ => Ends Halt.Regular (fun _ => True) (h.checkTimer p l₂))
          (h.receive p l₁) ↔
        (∀ buf, p.packet = some buf → ∀ len c, h.recvFilter l₁.connections buf = .ok (len, some c) →
          ¬ h.isHandshakeAck l₁ c buf → c.deleteMe = false) ∧
        ∀ l₂, h.receive p l₁ = .ok l₂ → h.server = true → p.timer = true →
          ∀ c ∈ l₂.connections ++ l₂.lost, c.state.alive = true →
            ¬ c.state.GivesUp (h.env c.id)) := by
    intro l₁ hl₁
    obtain ⟨marked, -⟩ := input.returned hl₁
    rw [ends_true_and, receive_iff]
    refine and_congr ?_ (forall₂_congr fun l₂ _ => checkTimer_iff p l₂)
    refine forall₄_congr fun buf _ len c => forall₂_congr fun found _ => ?_
    have mark := marked c (recvFilter_some found).1
    rw [mark, Bool.not_eq_false']
  constructor
  · intro ends
    refine ⟨fun l₁ hl₁ => ((parts l₁ hl₁).mp (ends l₁ hl₁)).1, ?_⟩
    intro server timer l₂ hl₂
    obtain ⟨l₁, hl₁, received⟩ : ∃ l₁, h.inputs p l = .ok l₁ ∧ h.receive p l₁ = .ok l₂ := by
      cases hl₁ : h.inputs p l with
      | error e =>
        rw [hl₁] at hl₂
        cases hl₂
      | ok l₁ =>
        rw [hl₁] at hl₂
        exact ⟨l₁, rfl, hl₂⟩
    exact ((parts l₁ hl₁).mp (ends l₁ hl₁)).2 l₂ received server timer
  · rintro ⟨packets, timers⟩ l₁ hl₁
    refine (parts l₁ hl₁).mpr ⟨packets l₁ hl₁, fun l₂ hl₂ server timer => ?_⟩
    refine timers server timer l₂ ?_
    rw [hl₁]
    exact hl₂

/-- An iteration that comes to its end. -/
def Step (h : Host) (l : Loop) (p : Polled) (l' : Loop) : Prop := h.doLoop l p = .ok l'

/-- A server or client on which time passes by seconds. -/
def plain (server : Bool) : Host where
  server
  config := { ipAddr := 0, port := 80, runProgram := false, unixSocket := true }
  rtTimeout := 200
  env _ := .plain .little
  block _ := .cleared
  isn _ := 0

end Host

/-- Nothing to do. -/
def Polled.idle : Polled where
  stdin := none
  outputted _ := false
  program _ := none
  packet := none
  timer := false

/-- **No use of a destroyed connection.** After every run of the main loop of
a client or a server, the next iteration uses no destroyed connection exactly
if it is `Safe`. And whatever a callback does with a connection, it does
before it destroys it. -/
theorem no_use_after_destroy {h : Host} {conn : Conn} {config : CtcpConfig} {ps : List Polled}
    {l : Loop} (run : Run h.Step (h.start conn config) ps l) :
    (∀ p, (∀ u id, h.doLoop l p ≠ .error (.misuse u id)) ↔ h.Safe l p) ∧
      ∀ env s call t, CallStep env s call t → ReflTransGen (LiveStep env) s t := by
  have inv : Host.LoopInv l :=
    Run.invariant Host.LoopInv (Host.loopInv_start conn config)
      (fun inv step => Host.loopInv_step inv step) run
  refine ⟨fun p => ?_, fun env s call t step => call_live step⟩
  rw [← Host.doLoop_iff inv, ends_iff]
  constructor
  · intro unused
    refine ⟨fun e he => ?_, fun _ _ => trivial⟩
    cases e with
    | misuse u id => exact absurd he (unused u id)
    | exit | hang => trivial
  · rintro ⟨regular, -⟩ u id misuse
    exact regular _ misuse

/-- A client connects to a server at port 80, and the server reads a byte from
stdin. -/
def firstPolls : List Polled :=
  [{ Polled.idle with
      packet := some (List.replicate 20 0 ++
        [0, 1, 0, 80, 0, 0, 0, 0, 0, 0, 0, 0, 0x50, 2, 5, 0xa0, 0, 0, 0, 0]) },
    { Polled.idle with stdin := some ⟨[⟨[97], by decide, by decide, fun _ => 0⟩], false⟩ }]

/-- The loop after them. -/
theorem no_use_after_destroy_accepted :
    ∃ l, firstPolls.foldlM (Host.plain true).doLoop
        ((Host.plain true).start ⟨0, 0, 0, 0⟩ ⟨1440, 200⟩) = .ok l ∧
      (∀ p, (∀ u id, (Host.plain true).doLoop l p ≠ .error (.misuse u id)) ↔
        (Host.plain true).Safe l p) ∧
      ∀ env s call t, CallStep env s call t → ReflTransGen (LiveStep env) s t := by
  have returns : (firstPolls.foldlM (Host.plain true).doLoop
      ((Host.plain true).start ⟨0, 0, 0, 0⟩ ⟨1440, 200⟩)).isOk = true := by
    decide +kernel
  obtain ⟨l, hl⟩ := exists_of_isOk returns
  exact ⟨l, hl, no_use_after_destroy (run_foldlM_ok hl)⟩

/-- The client does not answer: the timer sends the byte five times, destroys
the state, and reads its `next`. -/
theorem timer_reads_destroyed :
    ¬ ∀ (ps : List Polled) (l : Loop) (p : Polled),
      Run (Host.plain true).Step ((Host.plain true).start ⟨0, 0, 0, 0⟩ ⟨1440, 200⟩) ps l →
        ∀ u id, (Host.plain true).doLoop l p ≠ .error (.misuse u id) := by
  intro general
  let timer : Polled := { Polled.idle with timer := true }
  let loop := (firstPolls ++ [timer, timer, timer, timer]).foldlM (Host.plain true).doLoop
    ((Host.plain true).start ⟨0, 0, 0, 0⟩ ⟨1440, 200⟩)
  have returns : loop.isOk = true := by decide +kernel
  have fifth : (loop >>= fun l => ((Host.plain true).doLoop l timer).map fun _ => ()) =
      .error (.misuse .next 0) := by
    decide +kernel
  obtain ⟨l, hl⟩ := exists_of_isOk returns
  rw [hl] at fifth
  exact general _ l timer (run_foldlM_ok hl) _ _ (error_of_map fifth)

end NetLabs.Ctcp
