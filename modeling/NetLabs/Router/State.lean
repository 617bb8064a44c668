/-
NetLabs.Router.State — the state of the router of `lab1/router`.

`Sr` is the part of `struct sr_instance` the router logic uses: the interface
list, the routing table and the ARP cache with its request queue. The fields
for the connection to the server are left out; what is handed to
`sr_send_packet` goes into `trace` instead.

An IP address is the number its four bytes spell most significant first, so
`uint32_t` fields in network order hold it whatever the byte order of the
host. A MAC address is six bytes and an interface name what `strncmp` and
`strncpy` with the bound `sr_IFACE_NAMELEN` see of a `char` array.

Three fields are not in the source and nothing the code decides depends on
them. `allocations` numbers requests and queued packets, so that two of them
are told apart as their addresses do. `ticks` counts the readings of
`time(NULL)`. `trace` records what the code did.
-/
import NetLabs.Checksum

namespace NetLabs.Router

open NetLabs.Lib

/-! ## Sizes -/

def etherAddrLen : Nat := 6
def srIfaceNamelen : Nat := 32
def srArpcacheSz : Nat := 100
def srArpcacheTo : Int := 15

/-- A MAC address. -/
structure Mac where
  bytes : List UInt8
  size : bytes.length = etherAddrLen
  deriving DecidableEq, Repr

/-- An interface name. -/
structure IfName where
  chars : List UInt8
  fits : chars.length ≤ srIfaceNamelen
  noNul : 0 ∉ chars
  deriving DecidableEq, Repr

/-! ## The environment -/

/-- What the code meets and does not control. -/
structure Env where
  endian : Endian
  /-- The readings of `time(NULL)`, in order; a reading the code does not make
  has an index all the same. -/
  time : Nat → Int
  /-- The bytes behind the end of a frame. -/
  beyond : Nat → UInt8

/-! ## The data structures -/

/-- `struct sr_if`. -/
structure SrIf where
  name : IfName
  addr : Mac
  ip : UInt32
  deriving DecidableEq, Repr

/-- `struct sr_rt`. -/
structure SrRt where
  dest : UInt32
  gw : UInt32
  mask : UInt32
  interface : IfName
  deriving DecidableEq, Repr

/-- `struct sr_packet`; `addr` tells queued packets apart, `len` is the length
of `buf`. -/
structure SrPacket where
  addr : Nat
  buf : List UInt8
  iface : IfName
  deriving DecidableEq, Repr

/-- `struct sr_arpentry`. -/
structure ArpEntry where
  mac : Mac
  ip : UInt32
  added : Int
  valid : Bool
  deriving DecidableEq, Repr

/-- `struct sr_arpreq`; `addr` tells requests apart. The newest packet comes
first. -/
structure ArpReq where
  addr : Nat
  ip : UInt32
  sent : Int
  timesSent : Nat
  packets : List SrPacket
  deriving DecidableEq, Repr

/-- `struct sr_arpcache`. The newest request comes first. -/
structure ArpCache where
  entries : List ArpEntry
  size : entries.length = srArpcacheSz
  requests : List ArpReq
  deriving DecidableEq, Repr

/-- Why a frame was handed to `sr_send_packet`. -/
inductive Cause where
  /-- a packet with a resolved next hop -/
  | forward
  /-- a queued packet, on an ARP reply that binds `ip` to `mac` -/
  | replay (packet : SrPacket) (ip : UInt32) (mac : Mac)
  /-- an ARP request; `sent` is the reading stored in the request -/
  | arpRequest (request : Nat) (sent : Int)
  | arpReply
  /-- an ICMP message about the packet being processed -/
  | icmp
  /-- an ICMP host unreachable about a queued packet -/
  | unreachable (request : Nat) (packet : SrPacket)
  deriving DecidableEq, Repr

/-- An elementary action of the router. -/
inductive Event where
  /-- A packet was given to `sr_arpcache_queuereq`. -/
  | queued (ip : UInt32) (packet : SrPacket)
  /-- `sr_send_packet` wrote the frame. -/
  | sent (cause : Cause) (iface : IfName) (frame : List UInt8)
  /-- `sr_send_packet` refused the frame. -/
  | refused (cause : Cause) (iface : IfName) (frame : List UInt8)
  /-- The Ethernet destination of a queued packet matched no interface. -/
  | unmatched (request : Nat) (packet : SrPacket)
  /-- A request was given up, at the reading `now`. -/
  | gaveUp (request : Nat) (now : Int)
  /-- The sweep called `process_arpreq`. -/
  | visited (request : Nat)
  deriving DecidableEq, Repr

/-- `struct sr_instance`. -/
structure Sr where
  ifList : List SrIf
  routingTable : List SrRt
  cache : ArpCache
  allocations : Nat
  ticks : Nat
  trace : List Event
  deriving DecidableEq, Repr

/-! ## The start -/

/-- Six zero bytes. -/
def Mac.zero : Mac := ⟨List.replicate etherAddrLen 0, rfl⟩

/-- `sr_arpcache_init`: everything cleared. -/
def srArpcacheInit : ArpCache where
  entries := List.replicate srArpcacheSz ⟨.zero, 0, 0, false⟩
  size := rfl
  requests := []

/-- A router that has handled nothing. -/
def srInit (ifList : List SrIf) (routingTable : List SrRt) : Sr where
  ifList
  routingTable
  cache := srArpcacheInit
  allocations := 0
  ticks := 0
  trace := []

end NetLabs.Router
