/-
NetLabs.Router.Arpcache — the operations of `lab1/router/sr_arpcache.c` on
the cache and its request queue.

A pointer to a request that is on the queue is its `addr`; a request that was
unlinked is held by the caller as a value.
-/
import NetLabs.Router.State

namespace NetLabs.Router

open NetLabs.Lib

namespace ArpCache

/-! ## The table -/

/-- The loop of `sr_arpcache_lookup`: the last slot that matches. -/
def lookupLoop (ip : UInt32) : Option ArpEntry → List ArpEntry → Option ArpEntry
  | entry, [] => entry
  | entry, e :: rest => lookupLoop ip (if e.valid ∧ e.ip = ip then some e else entry) rest

/-- `sr_arpcache_lookup(cache, ip)`. -/
def srArpcacheLookup (cache : ArpCache) (ip : UInt32) : Option ArpEntry :=
  lookupLoop ip none cache.entries

/-- The entry goes into the first slot that is not valid. A full table stays
as it is. -/
def store (entry : ArpEntry) : List ArpEntry → List ArpEntry
  | [] => []
  | e :: rest => if e.valid then e :: store entry rest else entry :: rest

theorem length_store (entry : ArpEntry) (entries : List ArpEntry) :
    (store entry entries).length = entries.length := by
  induction entries with
  | nil => rfl
  | cons e rest ih =>
    rw [store]
    split
    · rw [List.length_cons, ih, List.length_cons]
    · rfl

/-- `difftime(curtime, entry.added) > SR_ARPCACHE_TO`. -/
def expireOne (curtime : Int) (e : ArpEntry) : ArpEntry :=
  if e.valid ∧ curtime - e.added > srArpcacheTo then { e with valid := false } else e

/-- The loop of `sr_arpcache_timeout` over the table. -/
def expire (cache : ArpCache) (curtime : Int) : ArpCache where
  entries := cache.entries.map (expireOne curtime)
  size := by rw [List.length_map, cache.size]
  requests := cache.requests

/-! ## The request queue -/

/-- The loop over the queue that looks for the request with this IP. -/
def findReq (cache : ArpCache) (ip : UInt32) : Option ArpReq :=
  cache.requests.find? (·.ip = ip)

/-- `new_pkt->next = req->packets, req->packets = new_pkt`. -/
def push (req : ArpReq) (packet : SrPacket) : ArpReq :=
  { req with packets := packet :: req.packets }

@[simp] theorem push_ip (req : ArpReq) (packet : SrPacket) : (push req packet).ip = req.ip := rfl

/-- The first request with this IP gets the packet. -/
def pushPacket (ip : UInt32) (packet : SrPacket) : List ArpReq → List ArpReq
  | [] => []
  | req :: rest =>
      if req.ip = ip then push req packet :: rest
      else req :: pushPacket ip packet rest

/-- `sr_arpcache_queuereq(cache, ip, packet, packet_len, iface)`, with the
addresses `malloc` returns for a new request and for the copy of the packet.
The second component is the request it returns. -/
def srArpcacheQueuereq (cache : ArpCache) (ip : UInt32) (packet : List UInt8) (iface : IfName)
    (reqAddr pktAddr : Nat) : ArpCache × Nat :=
  let found := cache.findReq ip
  let requests := match found with
    | some _ => cache.requests
    | none => { addr := reqAddr, ip, sent := 0, timesSent := 0, packets := [] } :: cache.requests
  let requests :=
    if packet.length ≠ 0 then pushPacket ip { addr := pktAddr, buf := packet, iface } requests
    else requests
  ({ cache with requests }, match found with
    | some req => req.addr
    | none => reqAddr)

/-- The queue without its first request with this IP. -/
def unlinkIp (ip : UInt32) (requests : List ArpReq) : List ArpReq :=
  requests.eraseP (·.ip = ip)

/-- `sr_arpcache_insert(cache, mac, ip)` at the reading `now`. The second
component is the request it unlinks and returns. -/
def srArpcacheInsert (cache : ArpCache) (mac : Mac) (ip : UInt32) (now : Int) :
    ArpCache × Option ArpReq :=
  ({ entries := store { mac, ip, added := now, valid := true } cache.entries
     size := by rw [length_store, cache.size]
     requests := unlinkIp ip cache.requests },
    cache.findReq ip)

/-- `sr_arpreq_destroy(cache, entry)`. -/
def srArpreqDestroy (cache : ArpCache) (entry : Nat) : ArpCache :=
  { cache with requests := cache.requests.eraseP (·.addr = entry) }

/-- The fields of a request on the queue change. -/
def updateReq (cache : ArpCache) (addr : Nat) (f : ArpReq → ArpReq) : ArpCache :=
  { cache with requests := cache.requests.map fun req => if req.addr = addr then f req else req }

/-- The request a pointer denotes. -/
def deref (cache : ArpCache) (addr : Nat) : Option ArpReq :=
  cache.requests.find? (·.addr = addr)

/-- `request->next`. -/
def next (addr : Nat) : List ArpReq → Option Nat
  | [] => none
  | req :: rest => if req.addr = addr then rest.head?.map ArpReq.addr else next addr rest

end ArpCache

end NetLabs.Router
