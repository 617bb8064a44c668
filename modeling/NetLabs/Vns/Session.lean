/-
NetLabs.Vns.Session — the listener of `lab1/pox_module/cs144/srhandler.py` and
the routers connected to it.

A connection is two queues of messages, each message the bytes that are
written for it. On the side of the router stand `sr_connect_to_server`, which
waits for the authentication before it opens the session, and the loop of
`main` behind it (`Phase`). On the other side stands the listener, which sends
the packets of the switch to every client it has accepted, whatever the client
is waiting for.

`next` is what the system does with one input: the switch connects or sends a
packet, a router connects, a message is read at one end, or a second goes by
in a router. The messages of a client, what its router was asked to do, and
the packets it put out are recorded.
-/
import NetLabs.Lib.Lts
import NetLabs.Vns.Authentication
import NetLabs.Vns.HardwareInfo
import NetLabs.Vns.Listener

namespace NetLabs.Vns

open NetLabs.Lib NetLabs.Lib.PyStruct NetLabs.Lib.Access NetLabs.Router

/-! ## The router's end -/

/-- What a router is started with, and what its system calls do. -/
structure Setup where
  login : Login
  host : Host
  env : Env
  routingTable : List SrRt
  topoId : UInt16
  /-- `sr->host` and `sr->template`, without their NULs. -/
  vhost : List UInt8
  template : List UInt8
  /-- `send` takes all of the message that opens the session. -/
  openSent : Bool

/-- The reply to this salt was computed and sent. -/
def Login.replies (login : Login) (salt : List UInt8) : Bool :=
  match login.keyBytes with
  | none => false
  | some key => login.mallocOk &&
      login.send (replyBytes login.user (SecureHash.digest (salt ++ key))) =
        (12 + login.user.length + 20 : Nat)

/-- What the handlers meet, the file with the key included. -/
def Setup.meets (setup : Setup) : Host :=
  { setup.host with
    authKeyReads := setup.login.keyBytes.isSome
    authReplies := setup.login.replies }

/-- `sr_connect_to_server` up to an answer, and the loop of `main`. -/
inductive Phase where
  /-- It waits for `VNS_AUTH_REQUEST`. -/
  | authRequest
  /-- It waits for `VNS_AUTH_STATUS`. -/
  | authStatus
  /-- It waits for `VNS_RTABLE`. -/
  | rtable
  | serving
  /-- The program has ended. -/
  | ended
  /-- An assertion failed, or a pointer was wrong. -/
  | crashed
  deriving DecidableEq, Repr

/-- `expected_cmd` -/
def Phase.expectedCmd : Phase → UInt32
  | .authRequest => vnsAuthRequest
  | .authStatus => vnsAuthStatus
  | .rtable => vnsRtable
  | _ => 0

/-- The router reads what the server sends. -/
def Phase.Alive : Phase → Prop
  | .ended | .crashed => False
  | _ => True

instance : DecidablePred Phase.Alive := fun phase =>
  match phase with
  | .ended | .crashed => .isFalse id
  | .authRequest | .authStatus | .rtable | .serving => .isTrue trivial

/-- The message that opens the session. -/
def Setup.openBytes (setup : Setup) : List UInt8 :=
  if setup.template = [] then
    be32 108 ++ be32 1 ++ be16 setup.topoId ++ be16 0 ++ pad Router.idSize setup.vhost ++
      pad Router.idSize setup.login.user ++ List.replicate Router.idSize 0
  else be32 70 ++ be32 64 ++ pad 30 setup.template ++ pad Router.idSize setup.vhost

/-- What `sr_send_packet` writes. -/
def packetBytes (iface : IfName) (frame : List UInt8) : List UInt8 :=
  be32 (UInt32.ofNat (frame.length + packetHeaderSize)) ++ be32 vnsPacket ++ pad 16 iface.chars ++
    frame

/-- The frame an event wrote, and its interface. -/
def frameOf : Event → Option (IfName × List UInt8)
  | .sent _ iface frame => some (iface, frame)
  | _ => none

/-- The frames a router has sent, in order. -/
def framesOf (trace : List Event) : List (IfName × List UInt8) := trace.filterMap frameOf

/-! ## A connection -/

/-- A client of the listener: the router, the two queues, and what has
happened. -/
structure Client where
  setup : Setup
  phase : Phase
  sr : Sr
  toRouter : List (List UInt8)
  toServer : List (List UInt8)
  /-- The messages the listener has sent. -/
  sent : List VnsMessage
  /-- What the router was asked to do. -/
  handled : List Op
  /-- The packets it has put out. -/
  packetsOut : List (Nat × List UInt8)

namespace Client

/-- A new connection. The routing table has been read before. -/
def accepted (setup : Setup) : Client where
  setup
  phase := .authRequest
  sr := srInit [] setup.routingTable
  toRouter := []
  toServer := []
  sent := []
  handled := []
  packetsOut := []

/-- `conn.send(m)`. The length goes into four bytes, so a longer message
raises an exception. -/
def send (lt : LtProtocol) (c : Client) (m : VnsMessage) : Client :=
  match m.pack with
  | .ok body =>
      if 8 + m.length < 4294967296 then
        { c with toRouter := c.toRouter ++ [frame lt m body], sent := c.sent ++ [m] }
      else c
  | .error _ => c

/-- What a handler of the listener does with the connection. -/
def react (lt : LtProtocol) (c : Client) (r : Reaction) : Client :=
  let c := r.sends.foldl (send lt) c
  { c with packetsOut := c.packetsOut ++ r.packetOut.toList }

/-- The router performs an operation, and writes the frames it sends. -/
def perform (c : Client) (op : Op) : Client :=
  match c.sr.apply c.setup.env op with
  | none => { c with phase := .crashed }
  | some sr =>
      { c with
        sr
        toServer := c.toServer ++
          (framesOf (sr.trace.drop c.sr.trace.length)).map fun f => packetBytes f.1 f.2
        handled := c.handled ++ [op] }

/-- The bytes of the reply, if the command is an authentication request. -/
def replyTo (c : Client) (command : Command) : List (List UInt8) :=
  if command.kind = vnsAuthRequest then
    match srHandleAuthRequest c.setup.login command.buf with
    | .ok (_, some reply) => [reply]
    | _ => []
  else []

/-- What follows a command that was served well. -/
def proceed (c : Client) (handed : Option Handover) : Client :=
  match c.phase with
  | .authRequest => { c with phase := .authStatus }
  | .authStatus =>
      if ¬ c.setup.openSent then { c with phase := .ended }
      else { c with
        phase := if c.setup.template = [] then .serving else .rtable
        toServer := c.toServer ++ [c.setup.openBytes] }
  | .rtable => { c with phase := .serving }
  | .serving =>
      match handed with
      | none => c
      | some h => c.perform (.frame (h.packet.take h.len.toNat) (.ofField h.interface))
  | _ => c

/-- The router reads a command. -/
def serve (c : Client) (command : Command) : Client :=
  match srReadFromServerExpect c.setup.meets c.sr c.phase.expectedCmd command with
  | .error _ => { c with phase := .crashed }
  | .ok served =>
      let c' := { c with sr := { c.sr with ifList := served.ifList } }
      if served.ret ≠ 1 then { c' with phase := .ended }
      else { c' with toServer := c'.toServer ++ c.replyTo command }.proceed served.handed

end Client

/-! ## The system -/

/-- What the framing layer makes of the bytes of a message. -/
def received (bytes : List UInt8) : Option VnsMessage :=
  match VnsMessage.unpack (ofBe32 (slice bytes 4 4)).toNat (bytes.drop 8) with
  | some (.ok m) => some m
  | _ => none

structure System where
  listener : Listener
  clients : List Client

def System.start : System := ⟨.init, []⟩

inductive Input where
  /-- The switch connects. -/
  | routerInfo (info : List (List UInt8 × Setting))
  /-- The switch sends a packet that came in by this port. -/
  | packetIn (port : Nat) (pkt : List UInt8)
  /-- A router connects, and the listener draws a salt. -/
  | connect (setup : Setup) (salt : List UInt8)
  /-- The listener reads a message of a client. The text is the one of an
  authentication status. -/
  | listenerReads (i : Nat) (text : List UInt8)
  /-- A router reads a message. -/
  | routerReads (i : Nat)
  /-- The timeout thread of a router wakes up. -/
  | second (i : Nat)

/-- What the system does with an input; `none` if it cannot happen. -/
def next (lt : LtProtocol) (s : System) : Input → Option System
  | .routerInfo info => some { s with listener := s.listener.handleRouterInfo info }
  | .packetIn port pkt =>
      some { s with clients := match s.listener.handleSRPacketIn port pkt with
        | none => s.clients
        | some m => s.clients.map (·.send lt m) }
  | .connect setup salt =>
      some { s with
        clients := s.clients ++ [(Client.accepted setup).react lt (handleNewClient salt)] }
  | .listenerReads i text => do
      let c ← s.clients[i]?
      match c.toServer with
      | [] => none
      | bytes :: rest =>
          let reaction := s.listener.handleRecvMsg text (received bytes)
          let c := { c with toServer := rest }.react lt reaction
          some { s with clients := s.clients.set i c }
  | .routerReads i => do
      let c ← s.clients[i]?
      match c.toRouter with
      | [] => none
      | bytes :: rest =>
          if ¬ c.phase.Alive then none
          else do
            let command ← commandOf bytes
            let c := { c with toRouter := rest }.serve command
            some { s with clients := s.clients.set i c }
  | .second i => do
      let c ← s.clients[i]?
      if c.phase ≠ .serving then none
      else some { s with clients := s.clients.set i (c.perform .timeout) }

/-- Any inputs in any order. -/
def Happens (lt : LtProtocol) (s : System) (input : Input) (s' : System) : Prop :=
  next lt s input = some s'

section

variable {lt : LtProtocol} {s s' : System} {i : Nat}

/-- The listener reads the first of what is on the way from the client. -/
theorem Happens.listenerReads {text : List UInt8} (h : Happens lt s (.listenerReads i text) s') :
    ∃ c bytes rest, s.clients[i]? = some c ∧ c.toServer = bytes :: rest ∧
      s' = { s with clients := s.clients.set i ({ c with toServer := rest }.react lt
        (s.listener.handleRecvMsg text (received bytes))) } := by
  obtain ⟨c, found, h⟩ := Option.bind_eq_some_iff.mp h
  dsimp only at h
  split at h
  · cases h
  · rename_i bytes rest queue
    exact ⟨c, bytes, rest, found, queue, (Option.some.inj h).symm⟩

/-- A router that goes on reads the first of what is on the way to it. -/
theorem Happens.routerReads (h : Happens lt s (.routerReads i) s') :
    ∃ c bytes rest command, s.clients[i]? = some c ∧ c.toRouter = bytes :: rest ∧
      c.phase.Alive ∧ commandOf bytes = some command ∧
      s' = { s with clients := s.clients.set i ({ c with toRouter := rest }.serve command) } := by
  obtain ⟨c, found, h⟩ := Option.bind_eq_some_iff.mp h
  dsimp only at h
  split at h
  · cases h
  · rename_i bytes rest queue
    split at h
    · cases h
    · rename_i alive
      obtain ⟨command, cut, h⟩ := Option.bind_eq_some_iff.mp h
      exact ⟨c, bytes, rest, command, found, queue, not_not.mp alive, cut, (Option.some.inj h).symm⟩

theorem Happens.second (h : Happens lt s (.second i) s') :
    ∃ c, s.clients[i]? = some c ∧ c.phase = .serving ∧
      s' = { s with clients := s.clients.set i (c.perform .timeout) } := by
  obtain ⟨c, found, h⟩ := Option.bind_eq_some_iff.mp h
  split at h
  · cases h
  · rename_i serving
    exact ⟨c, found, not_not.mp serving, (Option.some.inj h).symm⟩

end

end NetLabs.Vns
