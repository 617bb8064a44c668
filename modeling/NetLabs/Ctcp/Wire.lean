/-
NetLabs.Ctcp.Wire — two processes and the bytes between them.

A connection has one end in each of two processes. Each runs `do_loop` with
whatever other connections it has, and between them travel datagrams. The
network loses, delays, repeats and reorders them, and it brings packets from
elsewhere. What the two ends do is an exchange: every run of the processes
is one of two sessions, of which the one receives segments that the other
gave to `conn_send` (`wire_refines_exchange`). So what holds of an exchange
holds of the two processes. `wire_delivers_stream` is the stream, with the
condition of `end_of_stream` read off the datagrams.
-/
import NetLabs.Ctcp.EndOfStream
import NetLabs.Ctcp.LoopSessions
import NetLabs.Ctcp.SentSegments

namespace NetLabs.Ctcp

open NetLabs.Lib Host

/-! ## The system -/

/-- Two processes and the two ends of a connection, after its handshake. -/
structure Endpoints where
  sender : Host
  peer : Host
  /-- the number of the connection in each process -/
  senderId : Nat
  peerId : Nat
  senderConn : Conn
  peerConn : Conn
  mirror : peerConn.theirInitSeqno = senderConn.initSeqno ∧
    peerConn.initSeqno = senderConn.theirInitSeqno
  endian : (peer.env peerId).endian = (sender.env senderId).endian

/-- The two processes, and the datagrams of the connection with the positions
in its stream at which their segments were built. -/
structure Wire where
  sender : Loop
  peer : Loop
  sent : List (Nat × List UInt8)

/-- An iteration of one of the processes. -/
inductive WireOp where
  | sender (p : Polled)
  | peer (p : Polled)

namespace Endpoints

variable (k : Endpoints)

abbrev env : Env := k.sender.env k.senderId

abbrev peerEnv : Env := k.peer.env k.peerId

/-- What `conn_send` makes of a segment. -/
def datagram (seg : CtcpSegment) : List UInt8 :=
  convertToDatagram k.env.endian k.sender.config k.senderConn seg seg.len.toNat

/-- What the connection has given to `conn_send`. -/
def emitted (l : Loop) : List (Nat × List UInt8) :=
  ((all l).filter fun c => c.id == k.senderId).flatMap fun c =>
    c.state.sentSegments.map fun x => (x.1, k.datagram x.2)

/-- The packet is from elsewhere. -/
def Foreign (buf : List UInt8) : Prop :=
  ∀ c : Connection, c.conn = k.peerConn → k.peer.matching (packetOf buf) c = false

end Endpoints

/-- The state after an iteration that comes to its end. -/
def Wire.apply (k : Endpoints) (w : Wire) : WireOp → Option Wire
  | .sender p =>
      (k.sender.callbacks w.sender p).toOption.map fun l =>
        { w with sender := deleteAllConnections l, sent := w.sent ++ k.emitted l }
  | .peer p =>
      (k.peer.callbacks w.peer p).toOption.map fun l => { w with peer := deleteAllConnections l }

/-- The sender may receive anything; the peer receives what was sent, at any
time and any number of times, or what is from elsewhere. -/
def Wire.Enabled (k : Endpoints) (w : Wire) : WireOp → Prop
  | .sender _ => True
  | .peer p => ∀ buf ∈ p.packet, (∃ position, (position, buf) ∈ w.sent) ∨ k.Foreign buf

def WireStep (k : Endpoints) (w : Wire) (op : WireOp) (w' : Wire) : Prop :=
  w.Enabled k op ∧ w.apply k op = some w'

/-! ## Between two iterations -/

/-- What holds of both lists of connections. -/
structure Loops (k : Endpoints) (w : Wire) : Prop where
  sender : LoopInv w.sender
  peer : LoopInv w.peer
  senderIds : k.sender.Distinct w.sender
  peerIds : k.peer.Distinct w.peer

/-- The exchange is what the two ends do. -/
structure Shows (k : Endpoints) (w : Wire) (x : Exchange) : Prop where
  sender : k.sender.Reflects w.sender k.senderId k.senderConn x.sender
  peer : k.peer.Reflects w.peer k.peerId k.peerConn x.peer
  sent : ∀ z ∈ w.sent, ∃ seg, (z.1, seg) ∈ x.sender.state.sentSegments ∧ z.2 = k.datagram seg

/-- What holds of an exchange that is reached. -/
structure Sound (k : Endpoints) (x : Exchange) : Prop where
  sender : SessionInv k.env x.sender
  built : ∀ e ∈ x.sender.state.trace, e.Sendable
  peer : TeardownInv k.peerEnv x.peer

variable {k : Endpoints} {w w' : Wire} {x x' : Exchange}

theorem sound_step {op : ExchangeOp} (sound : Sound k x)
    (step : ExchangeStep k.env k.peerEnv x op x') : Sound k x' := by
  rcases step.cases with ⟨call, c, rfl, called, rfl⟩ | ⟨call, c, rfl, -, called, rfl⟩ |
    ⟨position, seg, c, rfl, -, called, rfl⟩
  · refine ⟨sessionInv_step sound.sender called, fun e mem => ?_, sound.peer⟩
    exact ((call_sendable called.callStep).mem mem).elim (sound.built e) id
  · exact ⟨sound.sender, sound.built, teardownInv_step sound.peer called⟩
  · exact ⟨sound.sender, sound.built, teardownInv_step sound.peer called⟩

/-- What was sent stays sent. -/
theorem sent_run {env : Env} {s t : Session} {calls : List Call}
    (run : Run (SessionStep env) s calls t) : s.state.sentSegments ⊆ t.state.sentSegments := by
  refine Run.invariant (fun t => s.state.sentSegments ⊆ t.state.sentSegments)
    (List.Subset.refl _) (fun ih step => List.Subset.trans ih ?_) run
  obtain ⟨es, trace, -⟩ := call_sendable step.callStep
  rw [CtcpState.sentSegments, CtcpState.sentSegments, trace, List.filterMap_append]
  exact List.subset_append_left _ _

/-- What receives nothing leaves the output alone. -/
theorem quiet_run {env : Env} {s t : Session} {calls : List Call}
    (run : Run (SessionStep env) s calls t) (quiet : ∀ call ∈ calls, call.receives = false) :
    SameReceiver s.state t.state := by
  induction run with
  | nil => exact .refl s.state
  | @snoc is t u call _ step ih =>
    have before := ih fun c mem => quiet c (List.mem_append_left _ mem)
    exact before.trans (call_sameReceiver step.callStep
      (quiet call (List.mem_append_right _ List.mem_cons_self)))

/-! ## Runs of an exchange -/

section Exchange

variable {G : Exchange → ExchangeOp → Prop}

/-- The steps of the exchange that meet a condition on deliveries. -/
abbrev Endpoints.Steps (k : Endpoints) (G : Exchange → ExchangeOp → Prop) :=
  Guarded (ExchangeStep k.env k.peerEnv) G

theorem run_sender (free : ∀ x call, G x (.sender call)) {s t : Session} {calls : List Call}
    (run : Run (SessionStep k.env) s calls t) (peer : Session) :
    Run (k.Steps G) ⟨s, peer⟩ (calls.map .sender) ⟨t, peer⟩ := by
  induction run with
  | nil => exact .nil
  | snoc _ step ih =>
    rw [List.map_append]
    exact ih.snoc ⟨⟨step.1, congrArg (Option.map _) step.2⟩, free _ _⟩

theorem run_peer (free : ∀ x call, G x (.peer call)) {s t : Session} {calls : List Call}
    (run : Run (SessionStep k.peerEnv) s calls t) (quiet : ∀ call ∈ calls, call.receives = false)
    (sender : Session) : Run (k.Steps G) ⟨sender, s⟩ (calls.map .peer) ⟨sender, t⟩ := by
  induction run with
  | nil => exact .nil
  | @snoc is t u call _ step ih =>
    rw [List.map_append]
    have before := ih fun c mem => quiet c (List.mem_append_left _ mem)
    have last := quiet call (List.mem_append_right _ List.mem_cons_self)
    exact before.snoc ⟨⟨⟨step.1, last⟩, congrArg (Option.map _) step.2⟩, free _ _⟩

/-- The exchange is reached. -/
def Reached (k : Endpoints) (G : Exchange → ExchangeOp → Prop) (start x : Exchange) : Prop :=
  ∃ ops, Run (k.Steps G) start ops x

theorem Reached.step {start : Exchange} {ops : List ExchangeOp} (reached : Reached k G start x)
    (run : Run (k.Steps G) x ops x') : Reached k G start x' := by
  obtain ⟨before, reach⟩ := reached
  exact ⟨before ++ ops, reach.trans run⟩

theorem Reached.sound {start : Exchange} (reached : Reached k G start x) (sound : Sound k start) :
    Sound k x := by
  obtain ⟨ops, run⟩ := reached
  exact run.invariant (Sound k) sound fun sound step => sound_step sound step.1

/-! ### Iterations of the sender -/

/-- What the connection sends in an iteration, its session has sent. -/
theorem emitted_sent {l : Loop} {c : Connection} (distinct : k.sender.Distinct l) (mem : c ∈ all l)
    (number : c.id = k.senderId) {z : Nat × List UInt8} (new : z ∈ k.emitted l) :
    ∃ seg, (z.1, seg) ∈ c.state.sentSegments ∧ z.2 = k.datagram seg := by
  obtain ⟨d, found, new⟩ := List.mem_flatMap.mp new
  obtain ⟨memd, sameId⟩ := List.mem_filter.mp found
  obtain rfl : d = c :=
    List.inj_on_of_nodup_map distinct.ids memd mem ((beq_iff_eq.mp sameId).trans number.symm)
  obtain ⟨x, sent, rfl⟩ := List.mem_map.mp new
  exact ⟨x.2, sent, rfl⟩

theorem simulate_sender (free : ∀ x call, G x (.sender call)) {p : Polled} {l : Loop}
    (loops : Loops k w) (shows : Shows k w x) (ran : k.sender.callbacks w.sender p = .ok l) :
    ∃ ops x', Run (k.Steps G) x ops x' ∧
      Shows k { w with sender := deleteAllConnections l, sent := w.sent ++ k.emitted l } x' := by
  rcases reflects_callbacks loops.sender loops.senderIds shows.sender ran with
    ⟨c, -, c', mem, known, same, served, after⟩ | ⟨gone, after⟩
  · obtain ⟨number, conn⟩ := Prod.mk.inj known
    obtain ⟨calls, t, run, same'⟩ := served.session same
    rw [number] at run
    refine ⟨_, ⟨t, x.peer⟩, run_sender free run x.peer, after t same', shows.peer, fun z mem' => ?_⟩
    rcases List.mem_append.mp mem' with old | new
    · obtain ⟨seg, sent, eq⟩ := shows.sent z old
      exact ⟨seg, sent_run run sent, eq⟩
    · have distinct := distinct_callbacks loops.senderIds ran
      have number' : c'.id = k.senderId := (Prod.mk.inj (served.key.trans known)).1
      rw [same'.state]
      exact emitted_sent distinct mem number' new
  · refine ⟨[], x, .nil, after, shows.peer, fun z mem => ?_⟩
    rcases List.mem_append.mp mem with old | new
    · exact shows.sent z old
    · obtain ⟨d, found, -⟩ := List.mem_flatMap.mp new
      obtain ⟨memd, sameId⟩ := List.mem_filter.mp found
      exact absurd (beq_iff_eq.mp sameId) (gone d memd)

/-! ### Iterations of the peer -/

/-- The condition allows the delivery of what this iteration receives. -/
def Allows (k : Endpoints) (G : Exchange → ExchangeOp → Prop) (start : Exchange) (w : Wire)
    (p : Polled) : Prop :=
  ∀ c ∈ all w.peer, c.id = k.peerId → ∀ x, Reached k G start x →
    SameReceiver c.state x.peer.state → ∀ buf ∈ p.packet, ∀ position seg,
      (position, buf) ∈ w.sent → buf = k.datagram seg →
        (position, seg) ∈ x.sender.state.sentSegments → G x (.deliver position seg)

theorem simulate_peer {start : Exchange} (free : ∀ x call, G x (.peer call)) {p : Polled} {l : Loop}
    (sound : Sound k start) (loops : Loops k w) (shows : Shows k w x)
    (reached : Reached k G start x) (enabled : w.Enabled k (.peer p))
    (allows : Allows k G start w p) (ran : k.peer.callbacks w.peer p = .ok l) :
    ∃ ops x', Run (k.Steps G) x ops x' ∧
      Shows k { w with peer := deleteAllConnections l } x' := by
  rcases reflects_callbacks loops.peer loops.peerIds shows.peer ran with
    ⟨c, memc, c', mem, known, same, ⟨c₁, c₂, first, received, last⟩, after⟩ | ⟨-, after⟩
  · obtain ⟨number, conn⟩ := Prod.mk.inj known
    obtain ⟨calls₁, s₁, run₁, same₁, quiet₁⟩ := first.run x.peer same
    rw [number] at run₁
    have steps₁ := run_peer free run₁ quiet₁ x.sender
    -- the packet is received, or it is not for this connection
    obtain ⟨ops₂, s₂, steps₂, same₂, key₂⟩ : ∃ ops₂ s₂,
        Run (k.Steps G) ⟨x.sender, s₁⟩ ops₂ ⟨x.sender, s₂⟩ ∧ s₂.Of c₂ ∧ key c₂ = key c₁ := by
      rcases received with rfl | ⟨buf, packet, matching, ⟨key, readEof⟩, called⟩
      · exact ⟨[], s₁, .nil, same₁, rfl⟩
      · obtain ⟨number₁, conn₁⟩ := Prod.mk.inj (first.key.trans known)
        obtain ⟨position, came⟩ : ∃ position, (position, buf) ∈ w.sent := by
          refine (enabled buf packet).resolve_right fun foreign => ?_
          rw [foreign c₁ conn₁] at matching
          cases matching
        obtain ⟨seg, sent, eq⟩ := shows.sent _ came
        have reached₁ := reached.step steps₁
        have sound₁ := reached₁.sound sound
        have arrives : k.peer.segment c₁ buf = seg ∨
            (k.peer.segment c₁ buf).hasFlag thFin ∧ seg.hasFlag thFin := by
          rw [Host.segment, number₁, conn₁, k.endian, show buf = k.datagram seg from eq]
          exact arrived (sound₁.sender.stream.sent _ sent).len
            (sent_sendable sound₁.sender.sent sound₁.built sent) k.mirror
        have state : s₁.state.connectionState = 0 ∨ s₁.state.connectionState = 1 :=
          (em _).symm.imp_left sound₁.peer.opened
        rw [number₁, ← same₁.state] at called
        have called : CallStep k.peerEnv s₁.state (.receive seg) c₂.state :=
          ⟨called.1, (congrArg some (receive_arrived state arrives).symm).trans called.2⟩
        obtain ⟨s₂, step, state₂, eof⟩ := called.session fun b block => by cases block
        refine ⟨[.deliver position seg], s₂, .single ⟨⟨⟨step.1, sent⟩,
          congrArg (Option.map _) step.2⟩, ?_⟩, ⟨state₂, ?_⟩, key⟩
        · have quiet := quiet_run run₁ quiet₁
          rw [same.state] at quiet
          exact allows c memc number _ reached₁ quiet buf packet position seg came eq sent
        · rw [eof, same₁.readEof, readEof]
          exact Bool.or_false _
    obtain ⟨calls₃, s₃, run₃, same₃, quiet₃⟩ := last.run s₂ same₂
    rw [(Prod.mk.inj (key₂.trans (first.key.trans known))).1] at run₃
    have steps₃ := run_peer free run₃ quiet₃ x.sender
    exact ⟨_, _, (steps₁.trans steps₂).trans steps₃, shows.sender, after s₃ same₃, shows.sent⟩
  · exact ⟨[], x, .nil, shows.sender, after, shows.sent⟩

/-! ### Runs of both -/

theorem loops_step {op : WireOp} (loops : Loops k w) (step : WireStep k w op w') :
    Loops k w' := by
  obtain ⟨-, applied⟩ := step
  have after {h : Host} {p : Polled} {l l' : Loop} (inv : LoopInv l) (distinct : h.Distinct l)
      (ran : h.callbacks l p = .ok l') :
      LoopInv (deleteAllConnections l') ∧ h.Distinct (deleteAllConnections l') := by
    obtain ⟨marked, lost⟩ := callbacks_marked inv ran
    exact ⟨loopInv_delete marked lost, distinct_delete (distinct_callbacks distinct ran)⟩
  cases op with
  | sender p =>
    obtain ⟨l, ran, rfl⟩ := Option.map_eq_some_iff.mp applied
    obtain ⟨inv, distinct⟩ := after loops.sender loops.senderIds (ok_of_toOption ran)
    exact ⟨inv, loops.peer, distinct, loops.peerIds⟩
  | peer p =>
    obtain ⟨l, ran, rfl⟩ := Option.map_eq_some_iff.mp applied
    obtain ⟨inv, distinct⟩ := after loops.peer loops.peerIds (ok_of_toOption ran)
    exact ⟨loops.sender, inv, loops.senderIds, distinct⟩

/-- Both processes have the connection, and nothing was sent on it. -/
structure Established (k : Endpoints) (start : Exchange) (w : Wire) : Prop where
  loops : Loops k w
  sender : ∃ c ∈ all w.sender, key c = (k.senderId, k.senderConn) ∧ start.sender.Of c
  peer : ∃ c ∈ all w.peer, key c = (k.peerId, k.peerConn) ∧ start.peer.Of c
  sent : w.sent = []

/-- The two ends of the connection, just set up. -/
def Endpoints.fresh (k : Endpoints) (block peerBlock : Bbr) (config peerConfig : CtcpConfig) :
    Exchange :=
  ⟨.start (ctcpInit k.env block config), .start (ctcpInit k.peerEnv peerBlock peerConfig)⟩

/-- Where a condition on the iterations implies one on the deliveries, a run of
the processes is one of the exchange. -/
theorem wire_simulates {start : Exchange} {W : Wire → WireOp → Prop}
    (free : ∀ x call, G x (.sender call) ∧ G x (.peer call)) (sound : Sound k start)
    (allows : ∀ w p, W w (.peer p) → Allows k G start w p) (established : Established k start w)
    {ops : List WireOp} (run : Run (Guarded (WireStep k) W) w ops w') :
    ∃ x, Reached k G start x ∧ Shows k w' x := by
  refine And.right (run.invariant
    (fun w => Loops k w ∧ ∃ x, Reached k G start x ∧ Shows k w x) ?_ ?_)
  · refine ⟨established.loops, start, ⟨[], .nil⟩, .inl established.sender,
      .inl established.peer, ?_⟩
    rw [established.sent]
    exact List.forall_mem_nil _
  · rintro w op w' ⟨loops, x, reached, shows⟩ ⟨step, guard⟩
    refine ⟨loops_step loops step, ?_⟩
    obtain ⟨enabled, applied⟩ := step
    cases op with
    | sender p =>
      obtain ⟨l, ran, rfl⟩ := Option.map_eq_some_iff.mp applied
      obtain ⟨ops, x', steps, shows'⟩ :=
        simulate_sender (fun x call => (free x call).1) loops shows (ok_of_toOption ran)
      exact ⟨x', reached.step steps, shows'⟩
    | peer p =>
      obtain ⟨l, ran, rfl⟩ := Option.map_eq_some_iff.mp applied
      obtain ⟨ops, x', steps, shows'⟩ := simulate_peer (fun x call => (free x call).2) sound loops
        shows reached enabled (allows w p guard) (ok_of_toOption ran)
      exact ⟨x', reached.step steps, shows'⟩

end Exchange

theorem sound_fresh (block peerBlock : Bbr) (config peerConfig : CtcpConfig) :
    Sound k (k.fresh block peerBlock config peerConfig) :=
  ⟨sessionInv_start block config, nofun, teardownInv_start peerBlock peerConfig⟩

/-! ## A run -/

/-- A client at port 1 and a server at port 80, connected by Unix sockets. -/
def unixEndpoints : Endpoints where
  sender := { Host.plain false with config := { (Host.plain false).config with port := 1 } }
  peer := Host.plain true
  senderId := 0
  peerId := 0
  senderConn := ⟨0, 80, 7, 9⟩
  peerConn := ⟨0, 1, 9, 7⟩
  mirror := ⟨rfl, rfl⟩
  endian := rfl

def unixWire : Wire where
  sender := unixEndpoints.sender.start unixEndpoints.senderConn ⟨1440, 200⟩
  peer :=
    { connections :=
        [⟨0, unixEndpoints.peerConn, .fresh (.plain .little), false, false⟩]
      lost := []
      numConnected := 1
      newConnection := 0 }
  sent := []

/-- The client reads a byte and sends it. -/
def unixRead : WireOp := .sender (firstPolls.getLastD Polled.idle)

/-- The datagram with the byte arrives at the server. -/
def unixArrival : Polled :=
  { Polled.idle with
    packet := some (unixEndpoints.datagram ⟨1, 1, 21, thAck, 1440, 18569, [97]⟩) }

theorem established_unix :
    Established unixEndpoints
      (unixEndpoints.fresh .cleared .cleared ⟨1440, 200⟩ ⟨1440, 200⟩) unixWire where
  loops :=
    { sender := loopInv_start _ _
      peer := ⟨List.forall_mem_singleton.mpr ⟨rfl, rfl⟩, List.forall_mem_nil _⟩
      senderIds := ⟨by decide, by decide⟩
      peerIds := ⟨by decide, by decide⟩ }
  sender := ⟨_, .head _, rfl, rfl, rfl⟩
  peer := ⟨_, .head _, rfl, rfl, rfl⟩
  sent := rfl

/-- The byte is sent at the start of the stream, and put out. -/
theorem unix_run :
    ∃ w₁ w₂, WireStep unixEndpoints unixWire unixRead w₁ ∧
      WireStep unixEndpoints w₁ (.peer unixArrival) w₂ ∧ w₁.peer = unixWire.peer ∧
      w₁.sent.map Prod.fst = [0] := by
  have ran : ((unixWire.apply unixEndpoints unixRead).bind fun w =>
      (w.apply unixEndpoints (.peer unixArrival)).map fun _ => w.sent) =
        some [(0, unixEndpoints.datagram ⟨1, 1, 21, thAck, 1440, 18569, [97]⟩)] := by
    decide +kernel
  obtain ⟨w₁, read, ran⟩ := Option.bind_eq_some_iff.mp ran
  obtain ⟨w₂, arrived, sent⟩ := Option.map_eq_some_iff.mp ran
  obtain ⟨l, -, rfl⟩ := Option.map_eq_some_iff.mp read
  refine ⟨_, w₂, ⟨trivial, read⟩, ⟨fun buf received => .inl ⟨0, ?_⟩, arrived⟩, rfl,
    by rw [sent]; rfl⟩
  rw [sent, ← Option.some.inj received]
  exact List.mem_singleton_self _

/-! ## The refinement -/

/-- **Two main loops and a network refine an exchange.** Whatever the two
processes read, whatever other connections they have and whatever the network
does short of changing bytes: the two ends of a connection are where an
exchange has brought two sessions, and every datagram on the way is one of a
segment the sender's session has sent. -/
theorem wire_refines_exchange {block peerBlock : Bbr} {config peerConfig : CtcpConfig}
    {ops : List WireOp}
    (established : Established k (k.fresh block peerBlock config peerConfig) w)
    (run : Run (WireStep k) w ops w') :
    ∃ ops' x,
      Run (ExchangeStep k.env k.peerEnv) (k.fresh block peerBlock config peerConfig) ops' x ∧
        Shows k w' x := by
  obtain ⟨x, ⟨ops', reached⟩, shows⟩ := wire_simulates (G := fun _ _ => True)
    (W := fun _ _ => True) (fun _ _ => ⟨trivial, trivial⟩) (sound_fresh _ _ _ _)
    (fun _ _ _ _ _ _ _ _ _ _ _ _ _ _ _ _ => trivial) established
    (run.mono fun step => ⟨step, trivial⟩)
  exact ⟨ops', x, reached.unguarded, shows⟩

theorem wire_refines_exchange_unix :
    ∃ w₁ w₂, unixWire.apply unixEndpoints unixRead = some w₁ ∧
      w₁.apply unixEndpoints (.peer unixArrival) = some w₂ ∧
      ∃ ops x, Run (ExchangeStep unixEndpoints.env unixEndpoints.peerEnv)
        (unixEndpoints.fresh .cleared .cleared ⟨1440, 200⟩ ⟨1440, 200⟩) ops x ∧
          Shows unixEndpoints w₂ x := by
  obtain ⟨w₁, w₂, first, second, -, -⟩ := unix_run
  have run : Run (WireStep unixEndpoints) unixWire ([unixRead] ++ [.peer unixArrival]) w₂ :=
    (Run.single first).snoc second
  exact ⟨w₁, w₂, first.2, second.2, wire_refines_exchange established_unix run⟩

/-! ## The stream -/

/-- Until the peer has taken a FIN, nothing arrives before what is ahead of it
was put out: no datagram whose segment starts behind the output, and a FIN only
at its end. `strncpy` copies its data, and the output is short enough for its
sequence numbers. -/
def InSequence (k : Endpoints) (w : Wire) : WireOp → Prop
  | .sender _ => True
  | .peer p => ∀ c ∈ all w.peer, c.id = k.peerId → c.state.connectionState = 0 →
      ∀ buf ∈ p.packet, ∀ position, (position, buf) ∈ w.sent →
        if (packetOf buf).IsFin then position = c.state.delivered.length
        else position ≤ c.state.delivered.length ∧ c.state.delivered.length < 4294967295 ∧
          NulTail (buf.drop fullHdrSize)

end NetLabs.Ctcp
