/-
NetLabs.Vns.Bridge — the router behind the listener is the router at the
switch.

What the listener and the two queues of a connection are there for is that the
router handles the packets of the switch as if it were attached to it
(`Bridged`). This holds in every run that is `Orderly`: the switch describes
itself always in the same way, the routers are started with what they need, no
message is too long for the other side, and no packet is broadcast while a
client does not know its interfaces (`startup_order` tells what happens else).

A session of such a run goes through the stages of `Stands`, from the request
for the authentication to the packets, and every input to it keeps it in them.
Frames go both ways then, each through a queue; only ARP requests for another
address are held back (`delivered`).
-/
import NetLabs.Vns.Exchange

namespace NetLabs.Vns

open NetLabs.Lib NetLabs.Lib.PyStruct NetLabs.Lib.Access NetLabs.Router

/-! ## Orderly runs -/

/-- What a router needs to come up. -/
structure Setup.Fit (setup : Setup) (interfaces : List VnsInterface) : Prop where
  plain : setup.template = []
  opens : setup.openSent = true
  memory : setup.host.mallocOk = true
  replies : ∀ salt, setup.login.replies salt = true
  user : setup.login.user.length < 4294967264
  verified : (srInit (interfaces.map recorded) setup.routingTable).srVerifyRoutingTable = 0

/-- The router has room for the interfaces and their names. -/
structure Roomy (interfaces : List VnsInterface) : Prop where
  few : interfaces.length ≤ 46
  named : ∀ m ∈ interfaces, m.name.length ≤ 15 ∧ 0 ∉ m.name

/-- The client has been sent its interfaces. -/
def Client.Announced (c : Client) : Prop := ∃ info, .hardwareInfo info ∈ c.sent

/-- The inputs of an orderly run. -/
def Orderly (info : List (List UInt8 × Setting)) (interfaces : List VnsInterface) (s : System) :
    Input → Prop
  | .routerInfo info' => info' = info
  | .packetIn port pkt => s.listener.portToIntfname port = none ∨
      pkt.length ≤ 9976 ∧ ∀ c ∈ s.clients, c.Announced
  | .connect setup salt => setup.Fit interfaces ∧ salt.length ≤ 9992
  | .listenerReads _ text => text.length ≤ 9991
  | .routerReads _ | .second _ => True

/-! ## The purpose -/

/-- A packet for the router, with the name of the interface it comes in by. -/
def VnsMessage.packet? : VnsMessage → Option VnsPacket
  | .packet p => some p
  | _ => none

/-- The packets that were broadcast to a client. -/
def packetsOf (sent : List VnsMessage) : List VnsPacket := sent.filterMap VnsMessage.packet?

/-- What the switch has done, for a router: whether it has described itself,
how many routers have connected, and the packets for this one. -/
structure Heard where
  told : Bool
  routers : Nat
  packets : List VnsPacket

/-- The packet that came in by this port, with the name the description gives
the port. -/
def named (info : List (List UInt8 × Setting)) (port : Nat) (pkt : List UInt8) :
    Option VnsPacket :=
  (info.find? fun item => item.2.port = port).map fun item => ⟨item.1, pkt⟩

/-- One more input, for the `i`-th router to connect: a packet is for it once
it has connected and the switch has described itself. -/
def Heard.next (info : List (List UInt8 × Setting)) (i : Nat) (h : Heard) : Input → Heard
  | .routerInfo _ => { h with told := true }
  | .connect _ _ => { h with routers := h.routers + 1 }
  | .packetIn port pkt =>
      if h.told ∧ i < h.routers then { h with packets := h.packets ++ (named info port pkt).toList }
      else h
  | _ => h

def heard (info : List (List UInt8 × Setting)) (i : Nat) (inputs : List Input) : Heard :=
  inputs.foldl (Heard.next info i) ⟨false, 0, []⟩

/-- What the router that connects was started with. -/
def Input.setup? : Input → Option Setup
  | .connect setup _ => some setup
  | _ => none

/-- What a packet is for the router attached to the switch. -/
def delivered (interfaces : List VnsInterface) (p : VnsPacket) : Option Op :=
  match (interfaces.map recorded).find? (·.name.chars = p.intfName) with
  | none => none
  | some receiver =>
      if ArpRequestNotFor receiver.ip p.ethernetFrame then none
      else some (.frame p.ethernetFrame receiver.name)

/-- A frame arrives. -/
def isFrame : Op → Bool
  | .frame _ _ => true
  | .timeout => false

/-- The frame comes out of the port that has the name of its interface. -/
def PutOut (info : List (List UInt8 × Setting)) (f : IfName × List UInt8)
    (out : Nat × List UInt8) : Prop :=
  out.2 = f.2 ∧ ∃ item ∈ info, item.1 = f.1.chars ∧ item.2.port = out.1

/-- Of the packets for it the router has handled those of `read` and not those
of `waiting`; of the frames it has sent those of `done` have come out, and
those of `pend` have not. -/
structure Bridged (info : List (List UInt8 × Setting)) (interfaces : List VnsInterface)
    (c : Client) (packets read waiting : List VnsPacket)
    (done pend : List (IfName × List UInt8)) : Prop where
  broadcast : packets = read ++ waiting
  run : Run (Step c.setup.env) (srInit (interfaces.map recorded) c.setup.routingTable) c.handled
    c.sr
  handled : c.handled.filter isFrame = read.filterMap (delivered interfaces)
  frames : framesOf c.sr.trace = done ++ pend
  out : List.Forall₂ (PutOut info) done c.packetsOut

/-! ## The stages of an orderly session -/

/-- No interfaces and no packets have been sent. -/
def Client.Unannounced (c : Client) : Prop :=
  ∀ m ∈ c.sent, m.packet? = none ∧ ∀ info, m ≠ .hardwareInfo info

/-- The router waits for its authentication. -/
structure Client.New (c : Client) : Prop where
  unannounced : c.Unannounced
  sr : c.sr = srInit [] c.setup.routingTable
  handled : c.handled = []
  packetsOut : c.packetsOut = []

/-- The router serves, and knows no interfaces. It does what it would do if it
knew them. -/
structure Client.Idle (interfaces : List VnsInterface) (c : Client) : Prop where
  ifList : c.sr.ifList = []
  requests : c.sr.cache.requests = []
  trace : c.sr.trace = []
  run : Run (Step c.setup.env) (srInit (interfaces.map recorded) c.setup.routingTable) c.handled
    { c.sr with ifList := interfaces.map recorded }
  inv : EmissionInv c.setup.env { c.sr with ifList := interfaces.map recorded }
  handled : c.handled.filter isFrame = []
  packetsOut : c.packetsOut = []

/-- The messages with packets that are on the way to the router. -/
structure Waiting (lt : LtProtocol) (interfaces : List VnsInterface) (queue : List (List UInt8))
    (waiting : List VnsPacket) : Prop where
  queue : queue = waiting.map fun p => wire lt (.packet p)
  small : ∀ p ∈ waiting, p.ethernetFrame.length ≤ 9976
  named : ∀ p ∈ waiting, ∃ m ∈ interfaces, m.name = p.intfName

/-- Where an orderly session stands. -/
inductive Stands (lt : LtProtocol) (l : Listener) (info : List (List UInt8 × Setting))
    (interfaces : List VnsInterface) (c : Client) : Prop where
  | asked (salt : List UInt8) (phase : c.phase = .authRequest)
      (toRouter : c.toRouter = [wire lt (.authRequest ⟨salt⟩)]) (small : salt.length ≤ 9992)
      (toServer : c.toServer = []) (fresh : c.New)
  | replied (digest : SecureHash.Words) (phase : c.phase = .authStatus) (toRouter : c.toRouter = [])
      (toServer : c.toServer = [replyBytes c.setup.login.user digest]) (fresh : c.New)
  | authenticated (text : List UInt8) (phase : c.phase = .authStatus)
      (toRouter : c.toRouter = [wire lt (.authStatus ⟨true, text⟩)]) (small : text.length ≤ 9991)
      (toServer : c.toServer = []) (fresh : c.New)
  | opening (phase : c.phase = .serving) (toRouter : c.toRouter = [])
      (toServer : c.toServer = [c.setup.openBytes] ∨ c.toServer = [])
      (unannounced : c.Unannounced) (idle : c.Idle interfaces)
  | announced (waiting : List VnsPacket) (queue : List (List UInt8)) (phase : c.phase = .serving)
      (toRouter : c.toRouter = wire lt (.hardwareInfo ⟨interfaces⟩) :: queue)
      (way : Waiting lt interfaces queue waiting) (toServer : c.toServer = [])
      (sent : packetsOf c.sent = waiting) (idle : c.Idle interfaces)
      (told : l.Told info interfaces)
  | bridging (read waiting : List VnsPacket) (done pend : List (IfName × List UInt8))
      (phase : c.phase = .serving) (way : Waiting lt interfaces c.toRouter waiting)
      (toServer : c.toServer = pend.map fun f => packetBytes f.1 f.2)
      (inv : EmissionInv c.setup.env c.sr)
      (ifList : c.sr.ifList = interfaces.map recorded)
      (bridged : Bridged info interfaces c (packetsOf c.sent) read waiting done pend)
      (told : l.Told info interfaces)

section

variable {lt : LtProtocol} {l : Listener} {info : List (List UInt8 × Setting)}
  {interfaces : List VnsInterface} {c : Client}

/-! ## What is sent -/

theorem pack_authRequest (salt : List UInt8) :
    (VnsMessage.authRequest ⟨salt⟩).pack = .ok salt := rfl

theorem pack_authStatus (text : List UInt8) :
    (VnsMessage.authStatus ⟨true, text⟩).pack = .ok (1 :: text) := rfl

/-- A message that can be packed and announced is sent. -/
theorem send_eq {m : VnsMessage} {body : List UInt8} (packed : m.pack = .ok body)
    (small : 8 + m.length < 4294967296) (c : Client) :
    c.send lt m = { c with toRouter := c.toRouter ++ [wire lt m], sent := c.sent ++ [m] } := by
  rw [Client.send, packed]
  dsimp only
  rw [if_pos small, wire_eq lt packed]

theorem packetsOf_append (sent : List VnsMessage) (m : VnsMessage) :
    packetsOf (sent ++ [m]) = packetsOf sent ++ m.packet?.toList := by
  rw [packetsOf, List.filterMap_append, packetsOf]
  cases h : m.packet? <;> simp [h]

theorem Client.Unannounced.append (h : c.Unannounced) {m : VnsMessage} (none : m.packet? = none)
    (other : ∀ info, m ≠ .hardwareInfo info) :
    ∀ m' ∈ c.sent ++ [m], m'.packet? = Option.none ∧ ∀ info, m' ≠ .hardwareInfo info := by
  intro m' mem
  rcases List.mem_append.mp mem with old | new
  · exact h m' old
  · exact List.mem_singleton.mp new ▸ ⟨none, other⟩

theorem Client.Unannounced.packetsOf (h : c.Unannounced) : packetsOf c.sent = [] := by
  rw [Vns.packetsOf, List.filterMap_eq_nil_iff]
  exact fun m mem => (h m mem).1

theorem Client.Unannounced.not_announced (h : c.Unannounced) : ¬ c.Announced := by
  rintro ⟨info, mem⟩
  exact (h _ mem).2 info rfl

/-! ## Performing operations -/

/-- Without requests a turn of the timeout thread does nothing that can be
seen, whatever the interfaces are. -/
theorem timeout_idle (env : Env) (sr : Sr) (idle : sr.cache.requests = []) :
    sr.srArpcacheTimeout env =
      some { sr with cache := sr.cache.expire (env.time sr.ticks), ticks := sr.ticks + 1 } := by
  have requests : (sr.cache.expire (env.time sr.ticks)).requests = [] := idle
  rw [Sr.srArpcacheTimeout, Sr.srArpcacheSweepreqs]
  dsimp only
  rw [requests]
  rfl

/-- A second goes by before the router knows its interfaces. -/
theorem Client.Idle.second (idle : c.Idle interfaces) :
    (c.perform .timeout).phase = c.phase ∧ (c.perform .timeout).toRouter = c.toRouter ∧
      (c.perform .timeout).toServer = c.toServer ∧ (c.perform .timeout).sent = c.sent ∧
      (c.perform .timeout).setup = c.setup ∧ (c.perform .timeout).Idle interfaces := by
  have applied := timeout_idle c.setup.env c.sr idle.requests
  have applied' := timeout_idle c.setup.env { c.sr with ifList := interfaces.map recorded }
    idle.requests
  have performed : c.perform .timeout = { c with
      sr := { c.sr with
        cache := c.sr.cache.expire (c.setup.env.time c.sr.ticks), ticks := c.sr.ticks + 1 }
      toServer := c.toServer ++ (framesOf (c.sr.trace.drop c.sr.trace.length)).map fun f =>
        packetBytes f.1 f.2
      handled := c.handled ++ [.timeout] } := by
    rw [Client.perform, show c.sr.apply c.setup.env .timeout = _ from applied]
  have arrives : Op.timeout.OnPort (interfaces.map recorded) := trivial
  obtain ⟨sr', step, inv, -⟩ := emissionInv_apply idle.inv arrives
  obtain rfl := Option.some.inj (applied'.symm.trans step)
  rw [performed]
  refine ⟨rfl, rfl, ?_, rfl, rfl, idle.ifList, idle.requests, idle.trace, ?_, inv, ?_,
    idle.packetsOut⟩
  · rw [List.drop_length]
    exact List.append_nil _
  · exact .snoc idle.run applied'
  · rw [List.filter_append, idle.handled]
    rfl

/-- The frames a run adds. -/
theorem framesOf_append {sr sr' : Sr} (grown : sr.trace <+: sr'.trace) :
    framesOf sr'.trace = framesOf sr.trace ++ framesOf (sr'.trace.drop sr.trace.length) := by
  obtain ⟨new, trace⟩ := grown
  rw [← trace, List.drop_left' rfl, framesOf, List.filterMap_append]
  rfl

/-- A router with ports performs what arrives on them. -/
theorem Client.perform_eq {op : Op} (inv : EmissionInv c.setup.env c.sr)
    (arrives : op.OnPort c.sr.ifList) :
    ∃ sr new, Step c.setup.env c.sr op sr ∧ EmissionInv c.setup.env sr ∧
      sr.ifList = c.sr.ifList ∧ framesOf sr.trace = framesOf c.sr.trace ++ new ∧
      c.perform op = { c with
        sr
        toServer := c.toServer ++ new.map fun f => packetBytes f.1 f.2
        handled := c.handled ++ [op] } := by
  obtain ⟨sr, applied, inv', ifList⟩ := emissionInv_apply inv arrives
  have grown : c.sr.trace <+: sr.trace := run_trace_prefix (.single applied)
  refine ⟨sr, _, applied, inv', ifList, framesOf_append grown, ?_⟩
  rw [Client.perform, applied]

/-- The bridge behind an operation, which the router was asked to perform for
the packets it has read since. -/
theorem Bridged.perform {read read' waiting waiting' : List VnsPacket}
    {done pend : List (IfName × List UInt8)} {op : Op} (phase : c.phase = .serving)
    (way : Waiting lt interfaces c.toRouter waiting')
    (toServer : c.toServer = pend.map fun f => packetBytes f.1 f.2)
    (inv : EmissionInv c.setup.env c.sr) (ifList : c.sr.ifList = interfaces.map recorded)
    (bridged : Bridged info interfaces c (packetsOf c.sent) read waiting done pend)
    (told : l.Told info interfaces)
    (arrives : op.OnPort c.sr.ifList) (broadcast : packetsOf c.sent = read' ++ waiting')
    (asked : read'.filterMap (delivered interfaces) =
      read.filterMap (delivered interfaces) ++ [op].filter isFrame) :
    Stands lt l info interfaces (c.perform op) := by
  obtain ⟨sr, new, applied, inv', same, frames, performed⟩ := Client.perform_eq inv arrives
  rw [performed]
  refine .bridging read' waiting' done (pend ++ new) phase way ?_ inv' (same.trans ifList)
    ⟨broadcast, .snoc bridged.run applied, ?_, ?_, bridged.out⟩ told
  · rw [List.map_append, ← toServer]
  · rw [List.filter_append, bridged.handled, asked]
  · rw [frames, bridged.frames, List.append_assoc]

/-! ## The router reads -/

/-- A command that is served well. -/
theorem Client.serve_eq {command : Command} {served : Served}
    (h : srReadFromServerExpect c.setup.meets c.sr c.phase.expectedCmd command = .ok served)
    (well : served.ret = 1) :
    c.serve command = ({ c with
      sr := { c.sr with ifList := served.ifList }
      toServer := c.toServer ++ c.replyTo command }).proceed served.handed := by
  rw [Client.serve, h]
  dsimp only
  rw [if_neg (by simp [well])]

theorem Client.replyTo_other {command : Command} (kind : command.kind ≠ vnsAuthRequest) :
    c.replyTo command = [] := if_neg kind

/-- The router reads the request, and replies. -/
theorem reads_asked {salt : List UInt8} {command : Command} (fit : c.setup.Fit interfaces)
    (phase : c.phase = .authRequest) (small : salt.length ≤ 9992) (toServer : c.toServer = [])
    (fresh : c.New) (cut : commandOf (wire lt (.authRequest ⟨salt⟩)) = some command) :
    Stands lt l info interfaces ({ c with toRouter := [] }.serve command) := by
  obtain ⟨command', cut', kind, count, buf, served⟩ :=
    read_wire lt (pack_authRequest salt) rfl (by omega)
  obtain rfl := Option.some.inj (cut'.symm.trans cut)
  have run := served c.setup.meets c.sr c.phase.expectedCmd fit.memory (.inr (by rw [phase]; rfl))
  have replies := fit.replies salt
  rw [show UInt32.ofNat (VnsMessage.authRequest ⟨salt⟩).getType = vnsAuthRequest from rfl]
    at kind buf run
  rw [serve_authRequest c.sr replies (by omega) count buf] at run
  obtain ⟨digest, reply⟩ := replyTo_authRequest (c := { c with toRouter := [] }) replies (by omega)
    kind buf
  rw [Client.serve_eq (c := { c with toRouter := [] }) run rfl, reply, Client.proceed]
  dsimp only
  rw [phase, toServer]
  exact .replied digest rfl rfl rfl
    ⟨fresh.unannounced, fresh.sr, fresh.handled, fresh.packetsOut⟩

/-- The router reads that it is authenticated, and opens the session. -/
theorem reads_authenticated {text : List UInt8} {command : Command} (fit : c.setup.Fit interfaces)
    (phase : c.phase = .authStatus) (small : text.length ≤ 9991) (toServer : c.toServer = [])
    (fresh : c.New) (cut : commandOf (wire lt (.authStatus ⟨true, text⟩)) = some command) :
    Stands lt l info interfaces ({ c with toRouter := [] }.serve command) := by
  have long : (1 :: text).length = 1 + text.length := Nat.add_comm _ _
  obtain ⟨command', cut', kind, -, buf, served⟩ :=
    read_wire lt (pack_authStatus text) long.symm (by omega)
  obtain rfl := Option.some.inj (cut'.symm.trans cut)
  have run := served c.setup.meets c.sr c.phase.expectedCmd fit.memory (.inr (by rw [phase]; rfl))
  rw [show UInt32.ofNat (VnsMessage.authStatus ⟨true, text⟩).getType = vnsAuthStatus from rfl]
    at kind buf run
  rw [long] at buf
  rw [serve_authStatus c.setup.meets c.sr buf] at run
  have other : command'.kind ≠ vnsAuthRequest := by
    rw [kind]
    decide
  rw [Client.serve_eq (c := { c with toRouter := [] }) run rfl, Client.replyTo_other other,
    Client.proceed]
  dsimp only
  rw [phase, toServer]
  dsimp only
  rw [if_neg (by simp [fit.opens]), if_pos fit.plain]
  refine .opening rfl rfl (.inl rfl) fresh.unannounced ?_
  obtain ⟨-, sr, handled, packetsOut⟩ := fresh
  refine ⟨by rw [sr]; rfl, by rw [sr]; rfl, by rw [sr]; rfl, ?_, ?_, by rw [handled]; rfl,
    packetsOut⟩
  · dsimp only
    rw [handled, sr]
    exact .nil
  · dsimp only
    rw [sr]
    exact ⟨queueInv_init _ _, ported_of_verified fit.verified,
      fun _ he => absurd he List.not_mem_nil⟩

/-- The router reads the interfaces. -/
theorem reads_announced {waiting : List VnsPacket} {queue : List (List UInt8)} {command : Command}
    (fit : c.setup.Fit interfaces) (few : interfaces.length ≤ 46) (phase : c.phase = .serving)
    (way : Waiting lt interfaces queue waiting) (toServer : c.toServer = [])
    (sent : packetsOf c.sent = waiting) (idle : c.Idle interfaces) (told : l.Told info interfaces)
    (cut : commandOf (wire lt (.hardwareInfo ⟨interfaces⟩)) = some command) :
    Stands lt l info interfaces ({ c with toRouter := queue }.serve command) := by
  have packed := pack_hardwareInfo interfaces
  set body := (interfaces.flatMap interfaceEntries).flatMap Entry.bytes with hbody
  have size : body.length = 36 * (6 * interfaces.length) := by
    rw [hbody, length_records, length_interfaceEntries]
  have counted : (VnsMessage.hardwareInfo ⟨interfaces⟩).length = body.length := by
    have record : VnsInterface.size = 216 := rfl
    show interfaces.length * VnsInterface.size = _
    rw [record, size]
    omega
  obtain ⟨command', cut', kind, count, buf, served⟩ :=
    read_wire lt (m := .hardwareInfo ⟨interfaces⟩) packed counted (by omega)
  obtain rfl := Option.some.inj (cut'.symm.trans cut)
  have run := served c.setup.meets c.sr c.phase.expectedCmd fit.memory (.inl (by rw [phase]; rfl))
  rw [show UInt32.ofNat (VnsMessage.hardwareInfo ⟨interfaces⟩).getType = vnsHwinfo from rfl]
    at kind buf run
  have table : c.sr.routingTable = c.setup.routingTable :=
    idle.run.invariant (fun sr => sr.routingTable = c.setup.routingTable) rfl
      fun same step => (Step.config step).2.trans same
  have verified : { c.sr with ifList := c.sr.ifList ++ interfaces.map recorded
      }.srVerifyRoutingTable = 0 := by
    rw [idle.ifList, ← fit.verified, Sr.srVerifyRoutingTable, Sr.srVerifyRoutingTable]
    dsimp only
    rw [table]
    rfl
  rw [serve_hwinfo c.setup.meets c.sr few packed count buf verified] at run
  have other : command'.kind ≠ vnsAuthRequest := by
    rw [kind]
    decide
  rw [Client.serve_eq (c := { c with toRouter := queue }) run rfl, Client.replyTo_other other,
    Client.proceed]
  dsimp only
  rw [phase, toServer, idle.ifList, List.nil_append]
  dsimp only
  refine .bridging [] waiting [] [] rfl way rfl idle.inv rfl ⟨sent, idle.run, idle.handled, ?_, ?_⟩
    told
  · rw [idle.trace]
    rfl
  · rw [idle.packetsOut]
    exact .nil

/-- An interface of the description is found under its name. -/
theorem find_named {intfName : List UInt8} (roomy : Roomy interfaces)
    (named : ∃ m ∈ interfaces, m.name = intfName) :
    ∃ receiver ∈ interfaces.map recorded, receiver.name.chars = intfName ∧
      intfName.length ≤ 15 ∧
      (interfaces.map recorded).find? (·.name.chars = intfName) = some receiver ∧
      (interfaces.map recorded).find? (·.name = receiver.name) = some receiver := by
  obtain ⟨m, known, rfl⟩ := named
  obtain ⟨fits, noNul⟩ := roomy.named m known
  have chars : (recorded m).name.chars = m.name :=
    (describes_recorded (by omega) noNul).1
  have some : ((interfaces.map recorded).find? (·.name.chars = m.name)).isSome :=
    List.find?_isSome.mpr ⟨recorded m, List.mem_map_of_mem known, decide_eq_true chars⟩
  obtain ⟨receiver, found⟩ := Option.isSome_iff_exists.mp some
  have same : receiver.name.chars = m.name := by simpa using List.find?_some found
  refine ⟨receiver, List.mem_of_find?_eq_some found, same, fits, found, ?_⟩
  rw [← found]
  congr 1
  funext other
  rw [decide_eq_decide, ← same]
  constructor
  · exact fun h => congrArg IfName.chars h
  · intro h
    cases hname : other.name
    cases hname' : receiver.name
    simp_all

/-- The router reads a packet. -/
theorem reads_bridging {p : VnsPacket} {queue : List (List UInt8)}
    {read waiting : List VnsPacket} {done pend : List (IfName × List UInt8)} {command : Command}
    (fit : c.setup.Fit interfaces) (roomy : Roomy interfaces) (phase : c.phase = .serving)
    (way : Waiting lt interfaces (wire lt (.packet p) :: queue) (p :: waiting))
    (toServer : c.toServer = pend.map fun f => packetBytes f.1 f.2)
    (inv : EmissionInv c.setup.env c.sr) (ifList : c.sr.ifList = interfaces.map recorded)
    (bridged : Bridged info interfaces c (packetsOf c.sent) read (p :: waiting) done pend)
    (told : l.Told info interfaces)
    (cut : commandOf (wire lt (.packet p)) = some command) :
    Stands lt l info interfaces ({ c with toRouter := queue }.serve command) := by
  have small := way.small p List.mem_cons_self
  have way' : Waiting lt interfaces queue waiting :=
    ⟨(List.cons.inj way.queue).2, fun q mem => way.small q (List.mem_cons_of_mem p mem),
      fun q mem => way.named q (List.mem_cons_of_mem p mem)⟩
  have size : (pad 16 p.intfName ++ p.ethernetFrame).length = 16 + p.ethernetFrame.length := by
    rw [List.length_append, length_pad]
  obtain ⟨command', cut', kind, count, buf, served⟩ :=
    read_wire lt (m := .packet p) (pack_packet p.intfName p.ethernetFrame) size.symm (by omega)
  obtain rfl := Option.some.inj (cut'.symm.trans cut)
  have run := served c.setup.meets c.sr c.phase.expectedCmd fit.memory (.inl (by rw [phase]; rfl))
  rw [show UInt32.ofNat (VnsMessage.packet p).getType = vnsPacket from rfl] at kind buf run
  have other : command'.kind ≠ vnsAuthRequest := by
    rw [kind]
    decide
  obtain ⟨receiver, known, chars, fits, found, found'⟩ :=
    find_named roomy (way.named p List.mem_cons_self)
  have asked : delivered interfaces p = if ArpRequestNotFor receiver.ip p.ethernetFrame then none
      else some (.frame p.ethernetFrame receiver.name) := by
    rw [delivered, found]
  have len : packetHeaderSize + p.ethernetFrame.length =
      8 + (pad 16 p.intfName ++ p.ethernetFrame).length := by
    rw [size]
    show 24 + _ = 8 + (16 + _)
    omega
  rw [← len] at count buf
  rw [← chars] at buf fits
  rw [serve_packet c.setup.meets c.sr fits small (by rw [Sr.srGetInterface, ifList, found']) count
    buf] at run
  rw [Client.serve_eq (c := { c with toRouter := queue }) run rfl, Client.replyTo_other other]
  dsimp only
  rw [List.append_nil]
  have broadcast : packetsOf c.sent = (read ++ [p]) ++ waiting := by
    rw [bridged.broadcast, List.append_assoc, List.singleton_append]
  by_cases request : ArpRequestNotFor receiver.ip p.ethernetFrame
  · rw [if_pos request] at asked ⊢
    rw [Client.proceed]
    dsimp only
    rw [phase]
    refine .bridging (read ++ [p]) waiting done pend rfl way' toServer inv ifList
      ⟨broadcast, bridged.run, ?_, bridged.frames, bridged.out⟩ told
    rw [List.filterMap_append, List.filterMap_cons_none asked, List.filterMap_nil, List.append_nil]
    exact bridged.handled
  · rw [if_neg request] at asked ⊢
    rw [Client.proceed]
    dsimp only
    rw [phase]
    have whole : p.ethernetFrame.take (UInt32.ofNat p.ethernetFrame.length).toNat =
        p.ethernetFrame := by
      rw [UInt32.toNat_ofNat']
      exact List.take_of_length_le (by omega)
    have name : IfName.ofField receiver.name.chars = receiver.name := by
      symm
      rw [IfName.eq_ofField_iff, List.take_of_length_le receiver.name.fits]
      symm
      rw [List.takeWhile_eq_self_iff]
      exact fun b hb => decide_eq_true fun zero => receiver.name.noNul (zero ▸ hb)
    dsimp only
    rw [whole, name]
    refine Bridged.perform (c := { c with
      phase := .serving, toRouter := queue, sr := { c.sr with ifList := c.sr.ifList } }) rfl way'
      toServer inv ifList
      ⟨bridged.broadcast, bridged.run, bridged.handled, bridged.frames, bridged.out⟩ told ?_
      broadcast ?_
    · exact ⟨receiver, ifList.symm ▸ known, rfl⟩
    · rw [List.filterMap_append, List.filterMap_cons_some asked]
      rfl

/-- The router reads what comes first. -/
theorem Stands.reads {bytes : List UInt8} {rest : List (List UInt8)} {command : Command}
    (h : Stands lt l info interfaces c) (fit : c.setup.Fit interfaces) (roomy : Roomy interfaces)
    (queue : c.toRouter = bytes :: rest) (cut : commandOf bytes = some command) :
    Stands lt l info interfaces ({ c with toRouter := rest }.serve command) := by
  cases h with
  | asked salt phase toRouter small toServer fresh =>
    obtain ⟨rfl, rfl⟩ := List.cons.inj (toRouter.symm.trans queue)
    exact reads_asked fit phase small toServer fresh cut
  | replied digest phase toRouter =>
    rw [toRouter] at queue
    cases queue
  | authenticated text phase toRouter small toServer fresh =>
    obtain ⟨rfl, rfl⟩ := List.cons.inj (toRouter.symm.trans queue)
    exact reads_authenticated fit phase small toServer fresh cut
  | opening phase toRouter =>
    rw [toRouter] at queue
    cases queue
  | announced waiting queue' phase toRouter way toServer sent idle told =>
    obtain ⟨rfl, rfl⟩ := List.cons.inj (toRouter.symm.trans queue)
    exact reads_announced fit roomy.few phase way toServer sent idle told cut
  | bridging read waiting done pend phase way toServer inv ifList bridged told =>
    cases waiting with
    | nil =>
      rw [way.queue] at queue
      cases queue
    | cons p waiting =>
      obtain ⟨rfl, -⟩ := List.cons.inj (way.queue.symm.trans queue)
      exact reads_bridging fit roomy phase (queue ▸ way) toServer inv ifList bridged told cut

/-! ## The listener reads -/

/-- A handler that sends one message. -/
theorem Client.react_send {m : VnsMessage} {body : List UInt8} (packed : m.pack = .ok body)
    (small : 8 + m.length < 4294967296) (c : Client) :
    c.react lt ⟨[m], none⟩ =
      { c with toRouter := c.toRouter ++ [wire lt m], sent := c.sent ++ [m] } := by
  rw [Client.react]
  dsimp only [List.foldl_cons, List.foldl_nil]
  rw [send_eq packed small]
  dsimp only [Option.toList_none]
  rw [List.append_nil]

/-- The listener reads the reply, and tells that it is right. -/
theorem answered_reply {text : List UInt8} (phase : c.phase = .authStatus)
    (toRouter : c.toRouter = []) (fresh : c.New) (small : text.length ≤ 9991) :
    Stands lt l info interfaces ({ c with toServer := [] }.react lt (handleAuthReply text)) := by
  have length : (VnsMessage.authStatus ⟨true, text⟩).length = 1 + text.length := rfl
  rw [handleAuthReply, Client.react_send (pack_authStatus text) (by omega)]
  dsimp only
  rw [toRouter]
  exact .authenticated text phase rfl small rfl
    ⟨fresh.unannounced.append rfl nofun, fresh.sr, fresh.handled, fresh.packetsOut⟩

/-- The listener reads that the session is open, and announces the interfaces
if it knows them. -/
theorem answered_open (few : interfaces.length ≤ 46) (known : l = .init ∨ l.Told info interfaces)
    (phase : c.phase = .serving) (toRouter : c.toRouter = []) (unannounced : c.Unannounced)
    (idle : c.Idle interfaces) :
    Stands lt l info interfaces ({ c with toServer := [] }.react lt l.handleOpenMsg) := by
  rcases known with rfl | told
  · have nothing : { c with toServer := [] }.react lt Listener.init.handleOpenMsg =
        { c with toServer := [] } := by
      rw [Client.react]
      dsimp only [Listener.handleOpenMsg, Listener.init, Reaction.nothing, List.foldl_nil,
        Option.toList_none]
      rw [List.append_nil]
    rw [nothing]
    exact .opening phase toRouter (.inr rfl) unannounced
      ⟨idle.ifList, idle.requests, idle.trace, idle.run, idle.inv, idle.handled, idle.packetsOut⟩
  · have length : (VnsMessage.hardwareInfo ⟨interfaces⟩).length = interfaces.length * 216 := rfl
    rw [Listener.handleOpenMsg, told.interfaces]
    dsimp only
    rw [Client.react_send (m := .hardwareInfo ⟨interfaces⟩) (pack_hardwareInfo interfaces)
      (by omega)]
    dsimp only
    rw [toRouter]
    refine .announced [] [] phase rfl ⟨rfl, nofun, nofun⟩ rfl ?_
      ⟨idle.ifList, idle.requests, idle.trace, idle.run, idle.inv, idle.handled, idle.packetsOut⟩
      told
    dsimp only
    rw [packetsOf_append, unannounced.packetsOf]
    rfl

/-- Every interface of a description has an item that spells it. -/
theorem Described.item (described : Described info interfaces) {m : VnsInterface}
    (known : m ∈ interfaces) : ∃ item ∈ info, Spells item m := by
  obtain ⟨spells, -, -⟩ := described
  induction spells with
  | nil => cases known
  | @cons item m' _ _ first rest ih =>
    rcases List.mem_cons.mp known with rfl | later
    · exact ⟨item, List.mem_cons_self, first⟩
    · obtain ⟨item', listed, spells⟩ := ih later
      exact ⟨item', List.mem_cons_of_mem item listed, spells⟩

/-- Every item of a description spells an interface. -/
theorem Described.interface (described : Described info interfaces)
    {item : List UInt8 × Setting} (listed : item ∈ info) : ∃ m ∈ interfaces, Spells item m := by
  obtain ⟨spells, -, -⟩ := described
  induction spells with
  | nil => cases listed
  | @cons item' m _ _ first rest ih =>
    rcases List.mem_cons.mp listed with rfl | later
    · exact ⟨m, List.mem_cons_self, first⟩
    · obtain ⟨m', known, spells⟩ := ih later
      exact ⟨m', List.mem_cons_of_mem m known, spells⟩

/-- The name of an interface is that of an item, with a port. -/
theorem Described.port (described : Described info interfaces) (told : l.Told info interfaces)
    (roomy : Roomy interfaces) {intf : SrIf} (mem : intf ∈ interfaces.map recorded) :
    intf.name.chars.length ≤ 15 ∧ ∃ port, l.intfnameToPort intf.name.chars = some port ∧
      ∃ item ∈ info, item.1 = intf.name.chars ∧ item.2.port = port := by
  obtain ⟨m, known, rfl⟩ := List.mem_map.mp mem
  obtain ⟨fits, noNul⟩ := roomy.named m known
  rw [(describes_recorded (by omega) noNul).1]
  obtain ⟨item, listed, spells⟩ := described.item known
  have here : ∃ item' ∈ info, item'.1 = m.name ∧ item'.2.port = item.2.port :=
    ⟨item, listed, spells.name.symm, rfl⟩
  exact ⟨fits, item.2.port, (told.toPort _ _).mpr here, here⟩

/-- The listener reads a packet, and puts it out. -/
theorem answered_packet {f : IfName × List UInt8} {read waiting : List VnsPacket}
    {done pend : List (IfName × List UInt8)} (roomy : Roomy interfaces)
    (described : Described info interfaces) {text : List UInt8} (phase : c.phase = .serving)
    (way : Waiting lt interfaces c.toRouter waiting) (inv : EmissionInv c.setup.env c.sr)
    (ifList : c.sr.ifList = interfaces.map recorded)
    (bridged : Bridged info interfaces c (packetsOf c.sent) read waiting done (f :: pend))
    (told : l.Told info interfaces) :
    Stands lt l info interfaces
      ({ c with toServer := pend.map fun (g : IfName × List UInt8) => packetBytes g.1 g.2 }.react lt
        (l.handleRecvMsg text (received (packetBytes f.1 f.2)))) := by
  have sent : f ∈ framesOf c.sr.trace := by
    rw [bridged.frames]
    exact List.mem_append_right _ List.mem_cons_self
  obtain ⟨e, logged, frame⟩ := List.mem_filterMap.mp sent
  obtain ⟨cause, rfl⟩ : ∃ cause, e = .sent cause f.1 f.2 := by
    cases e with
    | sent cause iface frame' => exact ⟨cause, by cases frame; rfl⟩
    | _ => cases frame
  obtain ⟨intf, found, -⟩ := inv.addressed _ logged
  have mem : intf ∈ interfaces.map recorded := ifList ▸ List.mem_of_find?_eq_some found
  obtain ⟨fits, port, toPort, item, listed, name, number⟩ := described.port told roomy mem
  rw [Sr.name_of_srGetInterface found] at fits toPort name
  rw [received_packet fits, Listener.handleRecvMsg, Listener.handlePacketMsg, toPort]
  refine .bridging read waiting (done ++ [f]) pend phase way rfl inv ifList
    ⟨bridged.broadcast, bridged.run, bridged.handled, ?_, ?_⟩ told
  · rw [List.append_assoc, List.singleton_append]
    exact bridged.frames
  · exact List.rel_append bridged.out (.cons ⟨rfl, item, listed, name, number⟩ .nil)

/-- The listener reads what comes first. -/
theorem Stands.answered {bytes text : List UInt8} {rest : List (List UInt8)}
    (h : Stands lt l info interfaces c) (fit : c.setup.Fit interfaces) (roomy : Roomy interfaces)
    (described : Described info interfaces) (known : l = .init ∨ l.Told info interfaces)
    (small : text.length ≤ 9991) (queue : c.toServer = bytes :: rest) :
    Stands lt l info interfaces
      ({ c with toServer := rest }.react lt (l.handleRecvMsg text (received bytes))) := by
  cases h with
  | asked salt phase toRouter small toServer =>
    rw [toServer] at queue
    cases queue
  | replied digest phase toRouter toServer fresh =>
    obtain ⟨rfl, rfl⟩ := List.cons.inj (toServer.symm.trans queue)
    rw [received_reply fit.user]
    exact answered_reply phase toRouter fresh small
  | authenticated text phase toRouter small toServer =>
    rw [toServer] at queue
    cases queue
  | opening phase toRouter toServer unannounced idle =>
    rcases toServer with toServer | toServer
    · obtain ⟨rfl, rfl⟩ := List.cons.inj (toServer.symm.trans queue)
      obtain ⟨m, opened⟩ := received_open c.setup fit.plain
      rw [opened]
      exact answered_open roomy.few known phase toRouter unannounced idle
    · rw [toServer] at queue
      cases queue
  | announced waiting queue' phase toRouter way toServer =>
    rw [toServer] at queue
    cases queue
  | bridging read waiting done pend phase way toServer inv ifList bridged told =>
    cases pend with
    | nil =>
      rw [toServer] at queue
      cases queue
    | cons f pend =>
      obtain ⟨rfl, rfl⟩ := List.cons.inj (toServer.symm.trans queue)
      exact answered_packet roomy described phase way inv ifList bridged told

/-! ## The other inputs -/

/-- The switch describes itself again. -/
theorem Stands.routerInfo {l' : Listener} (h : Stands lt l info interfaces c)
    (told : l'.Told info interfaces) : Stands lt l' info interfaces c := by
  cases h with
  | asked salt phase toRouter small toServer fresh =>
    exact .asked salt phase toRouter small toServer fresh
  | replied digest phase toRouter toServer fresh =>
    exact .replied digest phase toRouter toServer fresh
  | authenticated text phase toRouter small toServer fresh =>
    exact .authenticated text phase toRouter small toServer fresh
  | opening phase toRouter toServer unannounced idle =>
    exact .opening phase toRouter toServer unannounced idle
  | announced waiting queue phase toRouter way toServer sent idle =>
    exact .announced waiting queue phase toRouter way toServer sent idle told
  | bridging read waiting done pend phase way toServer inv ifList bridged =>
    exact .bridging read waiting done pend phase way toServer inv ifList bridged told

/-- A router connects. -/
theorem Stands.connect {setup : Setup} {salt : List UInt8} (small : salt.length ≤ 9992) :
    Stands lt l info interfaces ((Client.accepted setup).react lt (handleNewClient salt)) := by
  have length : (VnsMessage.authRequest ⟨salt⟩).length = salt.length := rfl
  rw [handleNewClient, Client.react_send (pack_authRequest salt) (by omega)]
  refine .asked salt rfl rfl small rfl ⟨?_, rfl, rfl, rfl⟩
  intro m mem
  obtain rfl := List.mem_singleton.mp mem
  exact ⟨rfl, nofun⟩

/-- A packet gets behind the others on the way. -/
theorem Waiting.append {queue : List (List UInt8)} {waiting : List VnsPacket} {p : VnsPacket}
    (way : Waiting lt interfaces queue waiting) (small : p.ethernetFrame.length ≤ 9976)
    (named : ∃ m ∈ interfaces, m.name = p.intfName) :
    Waiting lt interfaces (queue ++ [wire lt (.packet p)]) (waiting ++ [p]) := by
  refine ⟨by rw [way.queue, List.map_append, List.map_singleton], fun q mem => ?_, fun q mem => ?_⟩
  · rcases List.mem_append.mp mem with old | new
    · exact way.small q old
    · exact List.mem_singleton.mp new ▸ small
  · rcases List.mem_append.mp mem with old | new
    · exact way.named q old
    · exact List.mem_singleton.mp new ▸ named

/-- The switch sends a packet to a client that has been sent its interfaces. -/
theorem Stands.packetIn {p : VnsPacket} (h : Stands lt l info interfaces c)
    (announced : c.Announced) (small : p.ethernetFrame.length ≤ 9976)
    (named : ∃ m ∈ interfaces, m.name = p.intfName) :
    Stands lt l info interfaces (c.send lt (.packet p)) := by
  have length : (VnsMessage.packet p).length = 16 + p.ethernetFrame.length := rfl
  rw [send_eq (m := .packet p) (pack_packet p.intfName p.ethernetFrame) (by omega)]
  cases h with
  | asked salt phase toRouter small toServer fresh =>
    exact absurd announced fresh.unannounced.not_announced
  | replied digest phase toRouter toServer fresh =>
    exact absurd announced fresh.unannounced.not_announced
  | authenticated text phase toRouter small toServer fresh =>
    exact absurd announced fresh.unannounced.not_announced
  | opening phase toRouter toServer unannounced =>
    exact absurd announced unannounced.not_announced
  | announced waiting queue phase toRouter way toServer sent idle told =>
    refine .announced (waiting ++ [p]) (queue ++ [wire lt (.packet p)]) phase ?_
      (way.append small named) toServer ?_
      ⟨idle.ifList, idle.requests, idle.trace, idle.run, idle.inv, idle.handled, idle.packetsOut⟩
      told
    · dsimp only
      rw [toRouter, List.cons_append]
    · dsimp only
      rw [packetsOf_append, sent]
      rfl
  | bridging read waiting done pend phase way toServer inv ifList bridged told =>
    refine .bridging read (waiting ++ [p]) done pend phase (way.append small named) toServer inv
      ifList ⟨?_, bridged.run, bridged.handled, bridged.frames, bridged.out⟩ told
    dsimp only
    rw [packetsOf_append, bridged.broadcast, List.append_assoc]
    rfl

/-- A second goes by in a router that serves. -/
theorem Stands.second (h : Stands lt l info interfaces c) (serving : c.phase = .serving) :
    Stands lt l info interfaces (c.perform .timeout) := by
  cases h with
  | asked salt phase =>
    rw [phase] at serving
    cases serving
  | replied digest phase =>
    rw [phase] at serving
    cases serving
  | authenticated text phase =>
    rw [phase] at serving
    cases serving
  | opening phase toRouter toServer unannounced idle =>
    obtain ⟨phase', toRouter', toServer', sent', setup', idle'⟩ := idle.second
    refine .opening (phase'.trans phase) (toRouter'.trans toRouter) ?_ ?_ idle'
    · rw [toServer', setup']
      exact toServer
    · rw [Client.Unannounced, sent']
      exact unannounced
  | announced waiting queue phase toRouter way toServer sent idle told =>
    obtain ⟨phase', toRouter', toServer', sent', -, idle'⟩ := idle.second
    exact .announced waiting queue (phase'.trans phase) (toRouter'.trans toRouter) way
      (toServer'.trans toServer) (sent' ▸ sent) idle' told
  | bridging read waiting done pend phase way toServer inv ifList bridged told =>
    exact bridged.perform phase way toServer inv ifList told trivial bridged.broadcast
      (List.append_nil _).symm

end

end NetLabs.Vns
