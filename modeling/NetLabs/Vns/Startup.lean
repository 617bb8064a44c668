/-
NetLabs.Vns.Startup — in which order a router that has come up got its
messages.

The listener broadcasts the packets of the switch to every client from the
moment it accepts the connection, but the router does not expect them before
its session is open. While it waits for the authentication it takes any packet
for a failure and ends; and before it knows its interfaces a packet with room
for an ARP header stops it at an assertion. So whatever the order of events, a
router that knows interfaces has got the request, the status and the
interfaces before any such packet (`startup_order`).
-/
import NetLabs.Vns.Session

namespace NetLabs.Vns

open NetLabs.Lib NetLabs.Lib.PyStruct NetLabs.Lib.Access NetLabs.Router

/-! ## Messages and commands -/

/-- The bytes of a message. -/
def wire (lt : LtProtocol) (m : VnsMessage) : List UInt8 :=
  match m.pack with
  | .ok body => frame lt m body
  | .error _ => []

/-- The message can be packed, and its length written into its header. -/
def Sendable (m : VnsMessage) : Prop := ∃ body, m.pack = .ok body ∧ 8 + m.length < 4294967296

theorem wire_eq (lt : LtProtocol) {m : VnsMessage} {body : List UInt8}
    (packed : m.pack = .ok body) : wire lt m = frame lt m body := by
  rw [wire, packed]

/-- The command a message is read as. -/
theorem commandOf_wire {lt : LtProtocol} {m : VnsMessage} {body : List UInt8} {command : Command}
    (packed : m.pack = .ok body) (small : 8 + m.length < 4294967296)
    (h : commandOf (wire lt m) = some command) :
    command.len = wrapInt (8 + m.length : Nat) ∧
      command.body = be32 (UInt32.ofNat m.getType) ++ body := by
  rw [wire_eq lt packed, frame_eq lt small, commandOf] at h
  split at h
  · have word : (UInt32.ofNat (8 + m.length)).toNat = 8 + m.length := by
      rw [UInt32.toNat_ofNat']
      omega
    have len := congrArg Command.len (Option.some.inj h)
    have rest := congrArg Command.body (Option.some.inj h)
    dsimp only at len rest
    rw [List.take_left' (length_be32 _), ofBe32_be32, word] at len
    rw [List.drop_left' (length_be32 _)] at rest
    exact ⟨len.symm, rest.symm⟩
  · cases h

theorem kind_wire {lt : LtProtocol} {m : VnsMessage} {command : Command} (sendable : Sendable m)
    (h : commandOf (wire lt m) = some command) :
    command.kind = UInt32.ofNat m.getType := by
  obtain ⟨body, packed, small⟩ := sendable
  rw [Command.kind, (commandOf_wire packed small h).2, List.take_left' (length_be32 _), ofBe32_be32]

/-! ## What serving a command takes -/

section

variable {host : Host} {sr : Sr} {expectedCmd : UInt32} {command : Command} {served : Served}

/-- A command that was served well was expected. -/
theorem served_well (h : srReadFromServerExpect host sr expectedCmd command = .ok served)
    (well : served.ret = 1) :
    (0 ≤ command.len ∧ command.len ≤ 10000) ∧ (expectedCmd ≠ 0 → command.kind = expectedCmd) ∧
      Router.serve host sr command command.kind = .ok served := by
  have failed : ∀ {ifList : List SrIf}, (.ok ⟨-1, ifList, none⟩ : Access Served) = .ok served →
      False := by
    rintro ifList h
    rw [← Except.ok.inj h] at well
    cases well
  rw [srReadFromServerExpect] at h
  split at h
  · exact (failed h).elim
  · rename_i range
    split at h
    · exact (failed h).elim
    · split at h
      · cases h
      · obtain ⟨word, read, h⟩ := ok_of_bind h
        have kind : ofBe32 word = command.kind := by
          rw [bytes] at read
          split at read
          · rw [← Except.ok.inj read, Command.slice_buf, Command.kind]
          · cases read
        rw [kind] at h
        dsimp only at h
        split at h
        · exact (failed h).elim
        · rename_i expected
          refine ⟨by omega, fun some => ?_, h⟩
          by_contra other
          have close : command.kind = vnsClose := by
            by_contra open'
            exact expected ⟨some, other, open'⟩
          rw [close, Router.serve, if_neg (by decide), if_pos rfl] at h
          obtain ⟨-, -, h⟩ := ok_of_bind h
          rw [← Except.ok.inj h] at well
          cases well

/-- Only a list of interfaces changes the interfaces. -/
theorem serve_ifList (h : Router.serve host sr command command.kind = .ok served)
    (other : command.kind ≠ vnsHwinfo) : served.ifList = sr.ifList := by
  unfold Router.serve at h
  dsimp only at h
  rw [if_neg other] at h
  split_ifs at h
  · rw [servePacket] at h
    obtain ⟨drop, -, h⟩ := ok_of_bind h
    split at h
    · rw [← Except.ok.inj h]
    · obtain ⟨-, -, h⟩ := ok_of_bind h
      rw [← Except.ok.inj h]
  · obtain ⟨-, -, h⟩ := ok_of_bind h
    rw [← Except.ok.inj h]
  · obtain ⟨-, -, h⟩ := ok_of_bind h
    rw [← Except.ok.inj h]
  · rw [serveRtable] at h
    obtain ⟨-, -, h⟩ := ok_of_bind h
    split at h
    · obtain ⟨-, -, h⟩ := ok_of_bind h
      rw [← Except.ok.inj h]
    · rw [← Except.ok.inj h]
  · rw [serveAuthRequest] at h
    split at h
    · obtain ⟨salt, -, h⟩ := ok_of_bind h
      rw [← Except.ok.inj h]
    · rw [← Except.ok.inj h]
  · rw [serveAuthStatus] at h
    obtain ⟨ok, -, h⟩ := ok_of_bind h
    split at h
    · rw [← Except.ok.inj h]
    · obtain ⟨-, -, h⟩ := ok_of_bind h
      rw [← Except.ok.inj h]
  · rw [← Except.ok.inj h]

/-- A router without interfaces survives only packets that are too short for
an ARP header. -/
theorem serve_packet_short (h : Router.serve host sr command vnsPacket = .ok served)
    (unknown : sr.ifList = []) (long : 24 ≤ command.len) (small : command.len ≤ 10000) :
    command.len < 66 := by
  rw [Router.serve, if_pos rfl, servePacket] at h
  obtain ⟨drop, asked, -⟩ := ok_of_bind h
  rw [arpReqNotForUs, unknown] at asked
  obtain ⟨iface, looked, asked⟩ := ok_of_bind asked
  obtain rfl : none = iface := Except.ok.inj looked
  split at asked
  · rename_i short
    rw [UInt32.lt_iff_toNat_lt, frameLen_toNat (by omega), if_pos (by omega)] at short
    have header : (UInt32.ofNat (etherHdrSize + arpHdrSize)).toNat = 42 := rfl
    omega
  · cases asked

end

/-! ## The stages of a session -/

/-- No packet has room for an ARP header. -/
def Early (messages : List VnsMessage) : Prop :=
  ∀ m, VnsMessage.packet m ∈ messages → m.ethernetFrame.length < 42

/-- What a router in this phase has read, and whether it knows interfaces. -/
def Stage (phase : Phase) (read : List VnsMessage) (ifList : List SrIf) : Prop :=
  match phase with
  | .authRequest => read = [] ∧ ifList = []
  | .authStatus => (∃ salt, read = [.authRequest salt]) ∧ ifList = []
  | .rtable => (∃ salt status, read = [.authRequest salt, .authStatus status]) ∧ ifList = []
  | .serving => ∃ salt status rest, read = .authRequest salt :: .authStatus status :: rest ∧
      (ifList = [] ∧ Early rest ∨
        ∃ early info later, rest = early ++ .hardwareInfo info :: later ∧ Early early)
  | .ended | .crashed => True

/-- The router has read the first messages that were sent, and the others are
on the way. -/
structure Progress (lt : LtProtocol) (c : Client) (read left : List VnsMessage) : Prop where
  sent : c.sent = read ++ left
  queue : c.toRouter = left.map (wire lt)
  sendable : ∀ m ∈ left, Sendable m
  stage : Stage c.phase read c.sr.ifList

def InProgress (lt : LtProtocol) (c : Client) : Prop := ∃ read left, Progress lt c read left

theorem early_append {messages : List VnsMessage} (h : Early messages) {m : VnsMessage}
    (short : ∀ p, m = .packet p → p.ethernetFrame.length < 42) : Early (messages ++ [m]) := by
  intro p mem
  rcases List.mem_append.mp mem with old | new
  · exact h p old
  · exact short p (List.mem_singleton.mp new).symm

section

variable {lt : LtProtocol} {c : Client}

/-- A new connection. -/
theorem InProgress.accepted (lt : LtProtocol) (setup : Setup) :
    InProgress lt (Client.accepted setup) :=
  ⟨[], [], rfl, rfl, fun _ mem => absurd mem List.not_mem_nil, rfl, rfl⟩

/-- What is on the way to the server does not matter to the progress. -/
theorem InProgress.of_server (h : InProgress lt c) (toServer : List (List UInt8)) :
    InProgress lt { c with toServer } := by
  obtain ⟨read, left, progress⟩ := h
  exact ⟨read, left, progress.sent, progress.queue, progress.sendable, progress.stage⟩

/-- What is sent gets behind what is on the way. -/
theorem InProgress.send (h : InProgress lt c) (m : VnsMessage) : InProgress lt (c.send lt m) := by
  rw [Client.send]
  split
  · rename_i body packed
    split
    · rename_i small
      obtain ⟨read, left, progress⟩ := h
      refine ⟨read, left ++ [m], ?_, ?_, ?_, progress.stage⟩
      · exact (congrArg (· ++ [m]) progress.sent).trans (List.append_assoc _ _ _)
      · rw [List.map_append, ← progress.queue, List.map_singleton, wire_eq lt packed]
      · intro m' mem
        rcases List.mem_append.mp mem with old | new
        · exact progress.sendable m' old
        · exact List.mem_singleton.mp new ▸ ⟨body, packed, small⟩
    · exact h
  · exact h

/-- What the handlers of the listener do with a connection. -/
theorem InProgress.react (h : InProgress lt c) (r : Reaction) : InProgress lt (c.react lt r) := by
  have sends : ∀ (ms : List VnsMessage) (c : Client), InProgress lt c →
      InProgress lt (ms.foldl (Client.send lt) c) := by
    intro ms
    induction ms with
    | nil => exact fun c h => h
    | cons m ms ih => exact fun c h => ih _ (h.send m)
  obtain ⟨read, left, progress⟩ := sends r.sends c h
  exact ⟨read, left, progress.sent, progress.queue, progress.sendable, progress.stage⟩

end

/-! ## What the router's end leaves alone -/

namespace Client

/-- An operation is performed, or stops the router. -/
theorem perform_cases (c : Client) (op : Op) :
    (c.perform op).sent = c.sent ∧ (c.perform op).toRouter = c.toRouter ∧
      ((c.perform op).phase = .crashed ∨
        (c.perform op).phase = c.phase ∧ (c.perform op).sr.ifList = c.sr.ifList) := by
  rw [perform]
  cases applied : c.sr.apply c.setup.env op with
  | none => exact ⟨rfl, rfl, .inl rfl⟩
  | some sr => exact ⟨rfl, rfl, .inr ⟨rfl, (Step.config applied).1⟩⟩

theorem proceed_sent (c : Client) (handed : Option Handover) :
    (c.proceed handed).sent = c.sent ∧ (c.proceed handed).toRouter = c.toRouter := by
  unfold proceed
  split
  · exact ⟨rfl, rfl⟩
  · split <;> exact ⟨rfl, rfl⟩
  · exact ⟨rfl, rfl⟩
  · split
    · exact ⟨rfl, rfl⟩
    · exact ⟨(perform_cases c _).1, (perform_cases c _).2.1⟩
  · exact ⟨rfl, rfl⟩

theorem serve_sent (c : Client) (command : Command) :
    (c.serve command).sent = c.sent ∧ (c.serve command).toRouter = c.toRouter := by
  unfold serve
  split
  · exact ⟨rfl, rfl⟩
  · dsimp only
    split
    · exact ⟨rfl, rfl⟩
    · exact proceed_sent _ _

end Client

/-! ## A message is read -/

/-- The kind of a command tells the class of its message. -/
theorem class_of_kind (m : VnsMessage) :
    (UInt32.ofNat m.getType = vnsAuthRequest → ∃ salt, m = .authRequest salt) ∧
    (UInt32.ofNat m.getType = vnsAuthStatus → ∃ status, m = .authStatus status) ∧
    (UInt32.ofNat m.getType = vnsRtable → ∃ rtable, m = .rtable rtable) ∧
    (UInt32.ofNat m.getType = vnsHwinfo → ∃ info, m = .hardwareInfo info) := by
  cases m <;> refine ⟨fun h => ?_, fun h => ?_, fun h => ?_, fun h => ?_⟩ <;>
    first
    | exact ⟨_, rfl⟩
    | exact absurd h (of_decide_eq_false rfl)

/-- The stage of a serving router behind one more message. -/
theorem stage_serving {host : Host} {sr : Sr} {lt : LtProtocol} {m : VnsMessage}
    {command : Command} {served : Served} {read : List VnsMessage}
    (stage : Stage .serving read sr.ifList) (sendable : Sendable m)
    (cut : commandOf (wire lt m) = some command)
    (range : 0 ≤ command.len ∧ command.len ≤ 10000)
    (h : Router.serve host sr command command.kind = .ok served) :
    Stage .serving (read ++ [m]) served.ifList := by
  have kind := kind_wire sendable cut
  obtain ⟨salt, status, rest, rfl, known⟩ := stage
  refine ⟨salt, status, rest ++ [m], rfl, ?_⟩
  rcases known with ⟨unknown, early⟩ | ⟨early, info, later, rfl, short⟩
  · by_cases hwinfo : command.kind = vnsHwinfo
    · obtain ⟨info, rfl⟩ := (class_of_kind m).2.2.2 (kind ▸ hwinfo)
      exact .inr ⟨rest, info, [], rfl, early⟩
    · refine .inl ⟨(serve_ifList h hwinfo).trans unknown, early_append early ?_⟩
      rintro p rfl
      obtain ⟨body, packed, small⟩ := sendable
      have len := (commandOf_wire packed small cut).1
      have size : (VnsMessage.packet p).length = 16 + p.ethernetFrame.length := rfl
      have counted : command.len = (24 + p.ethernetFrame.length : Nat) := by
        rw [size] at small
        rw [len, size, wrapInt, Int.bmod_def] at range ⊢
        omega
      have short := serve_packet_short (kind ▸ h) unknown (by omega) range.2
      omega
  · exact .inr ⟨early, info, later ++ [m], by simp, short⟩

/-- The router reads the message that comes first. -/
theorem InProgress.serve {lt : LtProtocol} {c : Client} {bytes : List UInt8}
    {rest : List (List UInt8)} {command : Command} (h : InProgress lt c)
    (queue : c.toRouter = bytes :: rest) (alive : c.phase.Alive)
    (cut : commandOf bytes = some command) :
    InProgress lt ({ c with toRouter := rest }.serve command) := by
  obtain ⟨read, left, progress⟩ := h
  obtain ⟨m, left, rfl⟩ : ∃ m left', left = m :: left' := by
    cases left with
    | nil => exact absurd (queue.symm.trans progress.queue) (List.cons_ne_nil _ _)
    | cons m left => exact ⟨m, left, rfl⟩
  obtain ⟨rfl, rfl⟩ := List.cons.inj (queue.symm.trans progress.queue)
  have sendable := progress.sendable m List.mem_cons_self
  have kind := kind_wire sendable cut
  obtain ⟨sent, waiting⟩ := Client.serve_sent { c with toRouter := left.map (wire lt) } command
  refine ⟨read ++ [m], left, ?_, waiting, fun m' mem =>
    progress.sendable m' (List.mem_cons_of_mem m mem), ?_⟩
  · rw [sent, List.append_assoc, List.singleton_append]
    exact progress.sent
  · have stage := progress.stage
    unfold Client.serve
    split
    · trivial
    · rename_i served run
      dsimp only
      split
      · trivial
      · rename_i well
        obtain ⟨range, expected, run⟩ := served_well run (not_not.mp well)
        unfold Client.proceed
        dsimp only at run expected ⊢
        cases phase : c.phase with
        | authRequest =>
          rw [phase] at stage expected
          obtain ⟨rfl, unknown⟩ := stage
          have asked := expected (by decide)
          obtain ⟨salt, rfl⟩ := (class_of_kind m).1 (kind ▸ asked)
          exact ⟨⟨salt, rfl⟩, (serve_ifList run (asked ▸ by decide)).trans unknown⟩
        | authStatus =>
          rw [phase] at stage expected
          obtain ⟨⟨salt, rfl⟩, unknown⟩ := stage
          have answered := expected (by decide)
          obtain ⟨status, rfl⟩ := (class_of_kind m).2.1 (kind ▸ answered)
          have none := (serve_ifList run (answered ▸ by decide)).trans unknown
          dsimp only
          split_ifs
          · exact ⟨salt, status, [], rfl, .inl ⟨none, nofun⟩⟩
          · exact ⟨⟨salt, status, rfl⟩, none⟩
          · trivial
        | rtable =>
          rw [phase] at stage expected
          obtain ⟨⟨salt, status, rfl⟩, unknown⟩ := stage
          have table := expected (by decide)
          obtain ⟨rtable, rfl⟩ := (class_of_kind m).2.2.1 (kind ▸ table)
          refine ⟨salt, status, [.rtable rtable], rfl, .inl
            ⟨(serve_ifList run (table ▸ by decide)).trans unknown, fun p mem => ?_⟩⟩
          cases List.mem_singleton.mp mem
        | serving =>
          rw [phase] at stage
          have later := stage_serving stage sendable cut range run
          dsimp only
          split
          · exact phase ▸ later
          · rcases (Client.perform_cases _ _).2.2 with crashed | ⟨same, ifList⟩
            · rw [crashed]
              trivial
            · rw [same, ifList]
              exact phase ▸ later
        | ended => exact absurd alive (phase ▸ id)
        | crashed => exact absurd alive (phase ▸ id)

/-! ## Runs -/

/-- Every client is in progress. -/
def System.InProgress (lt : LtProtocol) (s : System) : Prop := ∀ c ∈ s.clients, Vns.InProgress lt c

/-- Any input keeps every client in progress. -/
theorem inProgress_next {lt : LtProtocol} {s s' : System} {input : Input}
    (inv : s.InProgress lt) (h : Happens lt s input s') : s'.InProgress lt := by
  have changed : ∀ {i : Nat} {c' : Client}, Vns.InProgress lt c' →
      ∀ c ∈ s.clients.set i c', Vns.InProgress lt c := fun new c mem =>
    (List.mem_or_eq_of_mem_set mem).elim (inv c) (fun h => h ▸ new)
  cases input with
  | routerInfo info =>
    obtain rfl := Option.some.inj h
    exact inv
  | packetIn port pkt =>
    obtain rfl := Option.some.inj h
    show ∀ c ∈ _, _
    dsimp only
    split
    · exact inv
    · intro c mem
      obtain ⟨old, was, rfl⟩ := List.mem_map.mp mem
      exact (inv old was).send _
  | connect setup salt =>
    obtain rfl := Option.some.inj h
    intro c mem
    rcases List.mem_append.mp mem with old | new
    · exact inv c old
    · rw [List.mem_singleton.mp new]
      exact (InProgress.accepted lt setup).react _
  | listenerReads i text =>
    obtain ⟨c, bytes, rest, found, -, rfl⟩ := h.listenerReads
    exact changed (((inv c (List.mem_of_getElem? found)).of_server _).react _)
  | routerReads i =>
    obtain ⟨c, bytes, rest, command, found, queue, alive, cut, rfl⟩ := h.routerReads
    exact changed ((inv c (List.mem_of_getElem? found)).serve queue alive cut)
  | second i =>
    obtain ⟨c, found, -, rfl⟩ := h.second
    obtain ⟨read, left, progress⟩ := inv c (List.mem_of_getElem? found)
    obtain ⟨sent, waiting, moved⟩ := c.perform_cases .timeout
    refine changed ⟨read, left, sent.trans progress.sent, waiting.trans progress.queue,
      progress.sendable, ?_⟩
    rcases moved with crashed | ⟨same, ifList⟩
    · rw [crashed]
      trivial
    · rw [same, ifList]
      exact progress.stage

/-- Whatever happens, in any order and to any number of clients: a router that
waits for no answer any more has first been sent the request and the status,
and one that knows interfaces was sent them before any packet with room for an
ARP header. -/
theorem startup_order (lt : LtProtocol) {inputs : List Input} {s : System}
    (run : Run (Happens lt) .start inputs s) {c : Client} (client : c ∈ s.clients)
    (serving : c.phase = .serving) :
    ∃ salt status rest, c.sent = .authRequest salt :: .authStatus status :: rest ∧
      (c.sr.ifList ≠ [] → ∃ early info later,
        rest = early ++ .hardwareInfo info :: later ∧ Early early) := by
  have inv : s.InProgress lt := run.invariant (System.InProgress lt)
    (fun _ mem => absurd mem List.not_mem_nil) inProgress_next
  obtain ⟨read, left, progress⟩ := inv c client
  have stage := progress.stage
  rw [serving] at stage
  obtain ⟨salt, status, rest, rfl, known⟩ := stage
  refine ⟨salt, status, rest ++ left, progress.sent, fun some => ?_⟩
  rcases known with ⟨none, -⟩ | ⟨early, info, later, rfl, short⟩
  · exact absurd none some
  · exact ⟨early, info, later ++ left, by simp, short⟩

/-- A router with one interface `eth1` and a route. -/
def sampleSetup : Setup where
  login := sampleLogin
  host := sampleHost
  env := .counting
  routingTable := [⟨0, 0x0a000102, 0, Router.eth1⟩]
  topoId := 0
  vhost := []
  template := []
  openSent := true

/-- A switch with this interface at port 3. -/
def sampleInfo : List (List UInt8 × Setting) :=
  [([101, 116, 104, 49], ⟨[49, 48, 46, 48, 46, 49, 46, 49], macText [2, 0, 0, 0, 0, 7], 3⟩)]

/-- The router comes up. -/
def sampleInputs : List Input :=
  [.connect sampleSetup [1, 2], .routerInfo sampleInfo, .routerReads 0,
    .listenerReads 0 [104, 105], .routerReads 0, .listenerReads 0 [], .routerReads 0]

theorem startup_order_sample :
    ∃ s, Run (Happens .plain) .start sampleInputs s ∧ ∃ c ∈ s.clients, c.sr.ifList ≠ [] ∧
      ∃ salt status rest, c.sent = .authRequest salt :: .authStatus status :: rest ∧
        (c.sr.ifList ≠ [] → ∃ early info later,
          rest = early ++ .hardwareInfo info :: later ∧ Early early) := by
  have up : (sampleInputs.foldlM (next .plain) .start).any (fun s => s.clients.any fun c =>
      c.phase = .serving ∧ c.sr.ifList ≠ []) = true := by
    decide +kernel
  obtain ⟨s, handled, up⟩ := (Option.any_eq_true _ _).mp up
  obtain ⟨c, client, up⟩ := List.any_eq_true.mp up
  obtain ⟨serving, some⟩ := of_decide_eq_true up
  have run : Run (Happens .plain) .start sampleInputs s := run_iff_foldlM.mpr handled
  exact ⟨s, run, c, client, some, startup_order .plain run client serving⟩

end NetLabs.Vns
