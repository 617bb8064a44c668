/-
NetLabs.Router.Threads — the packet thread and the timeout thread of the
router, interleaved.

`sr_handlepacket` runs in one thread and `sr_arpcache_timeout` in another.
The functions of `sr_arpcache.c` take the lock of the cache each for itself,
so between two of them the other thread may run. A turn of the timeout thread
holds the lock throughout. `PacketThread` says where the packet thread stands
between two of its critical sections, and what it holds there; `Threads.resume`
takes it to the next one. What it does without the lock belongs to the
critical section before, except that `process_arpreq` and the replay of a
resolved request are turns of their own: they use the request.

`accesses` is not in the source. It records which request each thread used or
destroyed, in order. Requests are told apart by `addr`, which no later request
has, so that the record does not depend on what `malloc` does with freed
memory.
-/
import NetLabs.Router.Steps

namespace NetLabs.Router

open NetLabs.Lib ArpCache

variable {env : Env}

/-! ## The state of both threads -/

/-- A thread uses a request, or frees it. -/
inductive Access where
  | use (request : Nat)
  | destroy (request : Nat)
  deriving DecidableEq, Repr

def Access.request : Access → Nat
  | .use request | .destroy request => request

/-- Where the packet thread stands when it holds no lock. -/
inductive PacketThread where
  /-- It waits for a frame. -/
  | idle
  /-- `sr_arpcache_lookup` found no entry for the next hop of the packet. -/
  | missed (packet : List UInt8) (nextHop : SrRt)
  /-- `sr_arpcache_queuereq` returned the request. -/
  | holding (request : Nat)
  /-- `process_arpreq` is at its call of `sr_arpreq_destroy`. -/
  | givingUp (request : Nat) (now : Int)
  /-- `sr_arpcache_insert` unlinked the request and returned it. -/
  | resolving (req : ArpReq) (gotOnIntf : Option SrIf) (interface : IfName) (ip : UInt32)
      (mac : Mac)
  /-- `process_arp_packet` is at its call of `sr_arpreq_destroy`. -/
  | replayed (request : Nat)
  /-- It used a request after it was destroyed. The language does not say what
  follows. -/
  | undefined
  deriving DecidableEq, Repr

/-- The request on the queue the packet thread has a pointer to. -/
def PacketThread.held : PacketThread → Option Nat
  | .holding request | .givingUp request _ => some request
  | _ => none

/-- The router and its packet thread. Between its turns the timeout thread
keeps nothing. -/
structure Threads where
  sr : Sr
  packet : PacketThread
  accesses : List Access
  deriving DecidableEq, Repr

/-- Both threads before the first frame. -/
def Threads.start (ifList : List SrIf) (routingTable : List SrRt) : Threads where
  sr := srInit ifList routingTable
  packet := .idle
  accesses := []

/-! ## The packet thread -/

/-- `process_ip_packet` on a packet to forward, up to its call of
`sr_arpcache_queuereq`. -/
def Sr.beginForward (env : Env) (sr : Sr) (packet : List UInt8) (nextHop : SrRt) :
    Option (Sr × PacketThread) :=
  let packet := recomputeIpSum env (ipTtl.set [env.getU8 ipTtl packet - 1] packet)
  match sr.cache.srArpcacheLookup nextHop.gw with
  | none => some (sr, .missed packet nextHop)
  | some nextHopMac =>
      match sr.srGetInterface nextHop.interface with
      | none => none
      | some intf =>
          let packet := etherDhost.set nextHopMac.mac.bytes packet
          let packet := etherShost.set intf.addr.bytes packet
          some (sr.srSendPacket .forward packet intf.name, .idle)

/-- `process_ip_packet` up to its call of `sr_arpcache_queuereq`. -/
def Sr.beginIpPacket (env : Env) (sr : Sr) (packet : List UInt8) (interface : IfName) :
    Option (Sr × PacketThread) :=
  if ipHdrSize + etherHdrSize > packet.length then some (sr, .idle)
  else
    let originalChksum := env.getSum ipSum packet
    let packet := recomputeIpSum env packet
    if env.getSum ipSum packet ≠ originalChksum then some (sr, .idle)
    else
      match sr.getInterfaceFromIp (env.getU32 ipDst packet) with
      | some destIntf => (sr.processLocal env packet interface destIntf).map (·, .idle)
      | none =>
          if 1 ≥ env.getU8 ipTtl packet then
            (sr.sendFabricatedIcmpPacket env .icmp packet interface 11 0 none).map (·, .idle)
          else
            match bestMatchLoop env (env.getU32 ipDst packet) none sr.routingTable with
            | none =>
                (sr.sendFabricatedIcmpPacket env .icmp packet interface 3 0 none).map (·, .idle)
            | some nextHop => sr.beginForward env packet nextHop

/-- `process_arp_packet` up to the packets of the request it resolves. -/
def Sr.beginArpPacket (env : Env) (sr : Sr) (packet : List UInt8) (interface : IfName) :
    Option (Sr × PacketThread) :=
  if arpHdrSize + etherHdrSize > packet.length then some (sr, .idle)
  else
    let gotOnIntf := sr.srGetInterface interface
    if env.getU16 arOp packet = arpOpRequest then
      match gotOnIntf with
      | none => none
      | some intf =>
          if env.getU32 arTip packet ≠ intf.ip then some (sr, .idle)
          else some (sr.srSendPacket .arpReply (arpReplyFrame env packet intf) interface, .idle)
    else if env.getU16 arOp packet = arpOpReply then
      let mac := env.getMac arSha.off packet
      let ip := env.getU32 arSip packet
      let (cache, cachedArpRequest) := sr.cache.srArpcacheInsert mac ip (env.time sr.ticks)
      let sr := { sr with cache, ticks := sr.ticks + 1 }
      match cachedArpRequest with
      | none => some (sr, .idle)
      | some req => some (sr, .resolving req gotOnIntf interface ip mac)
    else some (sr, .idle)

/-- `sr_handlepacket` up to the end of its first critical section. -/
def Sr.beginPacket (env : Env) (sr : Sr) (packet : List UInt8) (interface : IfName) :
    Option (Sr × PacketThread) :=
  if ethertype env packet = ethertypeArp then sr.beginArpPacket env packet interface
  else if ethertype env packet = ethertypeIp then sr.beginIpPacket env packet interface
  else some (sr, .idle)

/-- `process_arpreq(sr, request)` up to its call of `sr_arpreq_destroy`. -/
def Sr.beginArpreq (env : Env) (sr : Sr) (request : Nat) : Option (Sr × PacketThread) :=
  match sr.cache.deref request with
  | none => none
  | some req =>
      let now := env.time sr.ticks
      let sent := env.time (sr.ticks + 1)
      let sr := { sr with ticks := sr.ticks + 2 }
      if now - req.sent ≥ 1 then
        if req.timesSent < 5 then
          match req.packets.head? with
          | none => none
          | some packet =>
              match sr.srGetInterface packet.iface with
              | none => none
              | some intf =>
                  let cache := sr.cache.updateReq request fun r =>
                    { r with timesSent := r.timesSent + 1, sent }
                  some (({ sr with cache }.srSendPacket (.arpRequest request sent)
                    (arpRequestFrame intf req.ip) intf.name), .idle)
        else
          match sr.unreachableLoop env request req.packets with
          | none => none
          | some sr => some (sr, .givingUp request now)
      else some (sr, .idle)

/-- The request the packet thread gets in its first critical section. -/
def PacketThread.taken : PacketThread → List Access
  | .resolving req _ _ _ _ => [.use req.addr]
  | _ => []

/-- A frame arrives. -/
def Threads.frame (env : Env) (s : Threads) (packet : List UInt8) (interface : IfName) :
    Option Threads :=
  match s.packet with
  | .idle =>
      (s.sr.beginPacket env packet interface).map fun (sr, packet) =>
        { sr, packet, accesses := s.accesses ++ packet.taken }
  | _ => none

/-- The packet thread goes on. A pointer to a request that is no longer on the
queue is dangling, unless the packet thread itself unlinked the request. -/
def Threads.resume (env : Env) (s : Threads) : Option Threads :=
  match s.packet with
  | .idle | .undefined => none
  | .missed packet nextHop =>
      let (sr, request) := s.sr.enqueue nextHop.gw packet nextHop.interface
      some { sr, packet := .holding request, accesses := s.accesses ++ [.use request] }
  | .holding request =>
      let accesses := s.accesses ++ [.use request]
      match s.sr.cache.deref request with
      | none => some { s with packet := .undefined, accesses }
      | some _ =>
          (s.sr.beginArpreq env request).map fun (sr, packet) => { sr, packet, accesses }
  | .givingUp request now =>
      let accesses := s.accesses ++ [.destroy request]
      match s.sr.cache.deref request with
      | none => some { s with packet := .undefined, accesses }
      | some _ =>
          let cache := s.sr.cache.srArpreqDestroy request
          some { sr := { s.sr with cache }.log (.gaveUp request now), packet := .idle, accesses }
  | .resolving req gotOnIntf interface ip mac =>
      (s.sr.replayLoop gotOnIntf interface ip mac req.packets).map fun sr =>
        { sr, packet := .replayed req.addr, accesses := s.accesses ++ [.use req.addr] }
  | .replayed request =>
      let cache := s.sr.cache.srArpreqDestroy request
      some { sr := { s.sr with cache }, packet := .idle
             accesses := s.accesses ++ [.destroy request] }

/-! ## The timeout thread -/

/-- The access to a request an event of the sweep tells of. -/
def Event.access? : Event → Option Access
  | .visited request => some (.use request)
  | .gaveUp request _ => some (.destroy request)
  | _ => none

/-- A turn of the timeout thread. -/
def Threads.sweep (env : Env) (s : Threads) : Option Threads :=
  match s.packet with
  | .undefined => none
  | _ =>
      (s.sr.srArpcacheTimeout env).map fun sr =>
        { s with
          sr
          accesses := s.accesses ++
            (sr.trace.drop s.sr.trace.length).filterMap Event.access? }

/-! ## Interleavings -/

/-- Whose turn it is. -/
inductive Turn where
  | frame (packet : List UInt8) (interface : IfName)
  | resume
  | sweep
  deriving DecidableEq, Repr

def Threads.take (env : Env) (s : Threads) : Turn → Option Threads
  | .frame packet interface => s.frame env packet interface
  | .resume => s.resume env
  | .sweep => s.sweep env

/-- One turn of one thread. -/
def Threads.Step (env : Env) (s : Threads) (turn : Turn) (t : Threads) : Prop :=
  s.take env turn = some t

/-- The state after a list of turns. -/
def Threads.takeAll (env : Env) (s : Threads) (turns : List Turn) : Option Threads :=
  turns.foldlM (Threads.take env) s

theorem Threads.run_takeAll {s t : Threads} {turns : List Turn}
    (h : s.takeAll env turns = some t) : Run (Threads.Step env) s turns t :=
  run_iff_foldlM.mpr h

/-! ## Without interruption -/

/-- What the packet thread comes to if the timeout thread does not run. -/
def Sr.finish (env : Env) (sr : Sr) : PacketThread → Option Sr
  | .idle => some sr
  | .missed packet nextHop =>
      let (sr, request) := sr.enqueue nextHop.gw packet nextHop.interface
      sr.processArpreq env request
  | .holding request => sr.processArpreq env request
  | .givingUp request now =>
      some ({ sr with cache := sr.cache.srArpreqDestroy request }.log (.gaveUp request now))
  | .resolving req gotOnIntf interface ip mac =>
      (sr.replayLoop gotOnIntf interface ip mac req.packets).map fun sr =>
        { sr with cache := sr.cache.srArpreqDestroy req.addr }
  | .replayed request => some { sr with cache := sr.cache.srArpreqDestroy request }
  | .undefined => none

theorem processArpreq_eq (sr : Sr) (request : Nat) :
    sr.processArpreq env request =
      (sr.beginArpreq env request).bind fun (sr, packet) => sr.finish env packet := by
  unfold Sr.processArpreq Sr.beginArpreq
  cases sr.cache.deref request with
  | none => rfl
  | some req =>
    dsimp only
    split
    · split
      · cases req.packets.head? with
        | none => rfl
        | some packet =>
          dsimp only
          generalize ({ sr with ticks := sr.ticks + 2 } : Sr).srGetInterface packet.iface = intf
          cases intf <;> rfl
      · rw [Sr.unreachableLoop_eq]
        rfl
    · rfl

theorem forwardPacket_eq (sr : Sr) (packet : List UInt8) (nextHop : SrRt) :
    sr.forwardPacket env packet nextHop =
      (sr.beginForward env packet nextHop).bind fun (sr, packet) => sr.finish env packet := by
  unfold Sr.forwardPacket Sr.beginForward
  dsimp only
  cases sr.cache.srArpcacheLookup nextHop.gw with
  | none => rfl
  | some nextHopMac =>
    dsimp only
    cases sr.srGetInterface nextHop.interface <;> rfl

/-- A packet that is handled at once. -/
theorem bind_finish_idle (sr : Option Sr) :
    ((sr.map (·, PacketThread.idle)).bind fun (sr, packet) => sr.finish env packet) = sr := by
  cases sr <;> rfl

theorem processIpPacket_eq (sr : Sr) (packet : List UInt8) (interface : IfName) :
    sr.processIpPacket env packet interface =
      (sr.beginIpPacket env packet interface).bind fun (sr, packet) => sr.finish env packet := by
  unfold Sr.processIpPacket Sr.beginIpPacket
  dsimp only
  split
  · rfl
  split
  · rfl
  cases sr.getInterfaceFromIp (env.getU32 ipDst (recomputeIpSum env packet)) with
  | some destIntf => exact (bind_finish_idle _).symm
  | none =>
    dsimp only
    split
    · exact (bind_finish_idle _).symm
    cases bestMatchLoop env (env.getU32 ipDst (recomputeIpSum env packet)) none
        sr.routingTable with
    | none => exact (bind_finish_idle _).symm
    | some nextHop => exact forwardPacket_eq sr _ nextHop

theorem processArpPacket_eq (sr : Sr) (packet : List UInt8) (interface : IfName) :
    sr.processArpPacket env packet interface =
      (sr.beginArpPacket env packet interface).bind fun (sr, packet) => sr.finish env packet := by
  unfold Sr.processArpPacket Sr.beginArpPacket
  dsimp only
  split
  · rfl
  split
  · cases sr.srGetInterface interface with
    | none => rfl
    | some intf =>
      dsimp only
      split
      · rfl
      · exact (bind_finish_idle (some _)).symm
  split
  · generalize sr.cache.srArpcacheInsert (env.getMac arSha.off packet) (env.getU32 arSip packet)
      (env.time sr.ticks) = inserted
    obtain ⟨cache, cachedArpRequest⟩ := inserted
    cases cachedArpRequest with
    | none => rfl
    | some req =>
      dsimp only [Option.bind_some, Sr.finish]
      split
      · rename_i lost
        rw [lost]
        rfl
      · rename_i sent
        rw [sent]
        rfl
  · rfl

/-- The critical sections of the packet thread make up `sr_handlepacket`. -/
theorem srHandlepacket_eq (sr : Sr) (packet : List UInt8) (interface : IfName) :
    sr.srHandlepacket env packet interface =
      (sr.beginPacket env packet interface).bind fun (sr, packet) => sr.finish env packet := by
  unfold Sr.srHandlepacket Sr.beginPacket
  split
  · exact processArpPacket_eq sr packet interface
  split
  · exact processIpPacket_eq sr packet interface
  · rfl

/-- The state after the sources of the packets of `req` are told. -/
def Sr.notify (env : Env) (sr : Sr) (req : ArpReq) : Sr :=
  { sr with
    ticks := sr.ticks + 2
    trace := sr.trace ++ req.packets.map (sr.unreachableEvent env req.addr) }

/-- What `process_arpreq` can do before it destroys the request. -/
theorem beginArpreq_cases {sr sr' : Sr} {request : Nat} {packet : PacketThread}
    (h : sr.beginArpreq env request = some (sr', packet)) :
    ∃ req, sr.cache.deref req.addr = some req ∧ req.addr = request ∧
      ((packet = .idle ∧ sr.processArpreq env request = some sr' ∧
          ¬ (env.time sr.ticks - req.sent ≥ 1 ∧ 5 ≤ req.timesSent)) ∨
        (packet = .givingUp request (env.time sr.ticks) ∧ sr' = sr.notify env req ∧
          env.time sr.ticks - req.sent ≥ 1 ∧ 5 ≤ req.timesSent)) := by
  have whole : sr.processArpreq env request = sr'.finish env packet := by
    rw [processArpreq_eq, h]
    rfl
  unfold Sr.beginArpreq at h
  cases live : sr.cache.deref request with
  | none => simp [live] at h
  | some req =>
    obtain rfl := addr_of_deref live
    refine ⟨req, live, rfl, ?_⟩
    simp only [live] at h
    by_cases due : env.time sr.ticks - req.sent ≥ 1
    · rw [if_pos due] at h
      by_cases few : req.timesSent < 5
      · rw [if_pos few] at h
        left
        split at h
        · cases h
        · split at h
          · cases h
          · obtain ⟨-, rfl⟩ := Prod.mk.inj (Option.some.inj h)
            exact ⟨rfl, whole, fun both => absurd both.2 (Nat.not_le_of_lt few)⟩
      · rw [if_neg few, Sr.unreachableLoop_eq] at h
        obtain ⟨rfl, rfl⟩ := Prod.mk.inj (Option.some.inj h)
        exact .inr ⟨rfl, rfl, due, Nat.le_of_not_lt few⟩
    · rw [if_neg due] at h
      obtain ⟨-, rfl⟩ := Prod.mk.inj (Option.some.inj h)
      exact .inl ⟨rfl, whole, fun both => due both.1⟩

/-- The request is destroyed. -/
theorem Threads.step_givingUp {sr : Sr} {req : ArpReq} (now : Int) (accesses : List Access)
    (live : sr.cache.deref req.addr = some req) :
    Threads.Step env ⟨sr, .givingUp req.addr now, accesses⟩ .resume
      ⟨{ sr with cache := sr.cache.srArpreqDestroy req.addr }.log (.gaveUp req.addr now), .idle,
        accesses ++ [.destroy req.addr]⟩ := by
  unfold Threads.Step Threads.take Threads.resume
  dsimp only
  rw [live]

/-- The request is visited. -/
theorem Threads.step_holding {sr sr' : Sr} {request : Nat} {packet : PacketThread}
    (accesses : List Access) (h : sr.beginArpreq env request = some (sr', packet)) :
    Threads.Step env ⟨sr, .holding request, accesses⟩ .resume
      ⟨sr', packet, accesses ++ [.use request]⟩ := by
  obtain ⟨req, live, rfl, -⟩ := beginArpreq_cases h
  unfold Threads.Step Threads.take Threads.resume
  dsimp only
  rw [live, h]
  rfl

/-- `process_arpreq` on the request the packet thread holds. -/
theorem Threads.run_processArpreq {sr sr' : Sr} {request : Nat} (accesses : List Access)
    (h : sr.processArpreq env request = some sr') :
    ∃ n accesses', Run (Threads.Step env) ⟨sr, .holding request, accesses⟩
      (List.replicate n .resume) ⟨sr', .idle, accesses'⟩ := by
  rw [processArpreq_eq, Option.bind_eq_some_iff] at h
  obtain ⟨⟨sr₁, packet⟩, begun, rest⟩ := h
  have visit := Threads.step_holding accesses begun
  obtain ⟨req, live, rfl, ⟨rfl, -⟩ | ⟨rfl, rfl, -⟩⟩ := beginArpreq_cases begun
  · obtain rfl := Option.some.inj rest
    exact ⟨1, _, .single visit⟩
  · obtain rfl := Option.some.inj rest
    have live : (sr.notify env req).cache.deref req.addr = some req := live
    exact ⟨2, _, (Run.single visit).trans (.single (Threads.step_givingUp _ _ live))⟩

/-- Resumed often enough without a sweep in between, the packet thread is done
with its frame. -/
theorem Threads.run_finish {s : Threads} {sr : Sr}
    (live : ∀ request ∈ s.packet.held, ∃ req, s.sr.cache.deref request = some req)
    (h : s.sr.finish env s.packet = some sr) :
    ∃ n accesses, Run (Threads.Step env) s (List.replicate n .resume) ⟨sr, .idle, accesses⟩ := by
  obtain ⟨sr₀, packet, accesses⟩ := s
  cases packet with
  | idle =>
    obtain rfl := Option.some.inj h
    exact ⟨0, accesses, .nil⟩
  | missed packet nextHop =>
    obtain ⟨n, accesses', hrun⟩ := run_processArpreq (accesses ++ [.use _]) h
    exact ⟨n + 1, accesses', (Run.single rfl).trans hrun⟩
  | holding request => exact run_processArpreq accesses h
  | givingUp request now =>
    obtain ⟨req, found⟩ := live request rfl
    obtain rfl := addr_of_deref found
    obtain rfl := Option.some.inj h
    exact ⟨1, _, .single (step_givingUp now accesses found)⟩
  | resolving req gotOnIntf interface ip mac =>
    obtain ⟨sr₁, sent, rfl⟩ := Option.map_eq_some_iff.mp h
    have replay : Threads.Step env ⟨sr₀, .resolving req gotOnIntf interface ip mac, accesses⟩
        .resume ⟨sr₁, .replayed req.addr, accesses ++ [.use req.addr]⟩ := by
      show Option.map _ _ = _
      rw [sent]
      rfl
    exact ⟨2, _, (Run.single replay).trans (.single rfl)⟩
  | replayed request =>
    obtain rfl := Option.some.inj h
    exact ⟨1, _, .single rfl⟩
  | undefined => cases h

/-! ## The first critical section -/

/-- The state after `sr_arpcache_insert` unlinked the request for this IP. -/
def Sr.unlinked (env : Env) (sr : Sr) (mac : Mac) (ip : UInt32) : Sr :=
  { sr with
    cache := (sr.cache.srArpcacheInsert mac ip (env.time sr.ticks)).1
    ticks := sr.ticks + 1 }

/-- The first critical section deals with the frame, or finds no entry for its
next hop, or takes a request off the queue. -/
inductive Begun (env : Env) (sr : Sr) : Sr → PacketThread → Prop where
  | done {sr' : Sr} (moves : Moves env sr sr') : Begun env sr sr' .idle
  | missed {packet : List UInt8} {nextHop : SrRt} (route : nextHop ∈ sr.routingTable)
      (long : ipHdrSize + etherHdrSize ≤ packet.length) :
      Begun env sr sr (.missed packet nextHop)
  | resolving {req : ArpReq} {gotOnIntf : Option SrIf} {interface : IfName} {ip : UInt32}
      {mac : Mac} (live : sr.cache.findReq ip = some req) :
      Begun env sr (sr.unlinked env mac ip) (.resolving req gotOnIntf interface ip mac)

theorem Begun.of_map {sr sr' : Sr} {packet : PacketThread} {done : Option Sr}
    (h : done.map (·, PacketThread.idle) = some (sr', packet))
    (moves : done = some sr' → Moves env sr sr') : Begun env sr sr' packet := by
  cases done with
  | none => cases h
  | some sr₁ =>
    obtain ⟨rfl, rfl⟩ := Prod.mk.inj (Option.some.inj h)
    exact .done (moves rfl)

theorem beginForward_begun {sr sr' : Sr} {buf : List UInt8} {nextHop : SrRt}
    {packet : PacketThread} (route : nextHop ∈ sr.routingTable)
    (long : ipHdrSize + etherHdrSize ≤ buf.length)
    (h : sr.beginForward env buf nextHop = some (sr', packet)) : Begun env sr sr' packet := by
  unfold Sr.beginForward at h
  dsimp only at h
  split at h
  · obtain ⟨rfl, rfl⟩ := Prod.mk.inj (Option.some.inj h)
    refine .missed route ?_
    rw [length_recomputeIpSum, Field.length_set]
    exact long
  · split at h
    · cases h
    · obtain ⟨rfl, rfl⟩ := Prod.mk.inj (Option.some.inj h)
      exact .done (send_moves sr _ _ (.inl rfl))

theorem beginIpPacket_begun {sr sr' : Sr} {buf : List UInt8} {interface : IfName}
    {packet : PacketThread} (h : sr.beginIpPacket env buf interface = some (sr', packet)) :
    Begun env sr sr' packet := by
  unfold Sr.beginIpPacket at h
  split at h
  · obtain ⟨rfl, rfl⟩ := Prod.mk.inj (Option.some.inj h)
    exact .done .refl
  rename_i long
  dsimp only at h
  split at h
  · obtain ⟨rfl, rfl⟩ := Prod.mk.inj (Option.some.inj h)
    exact .done .refl
  split at h
  · exact .of_map h processLocal_moves
  split at h
  · exact .of_map h icmp_moves
  split at h
  · exact .of_map h icmp_moves
  · rename_i nextHop matched
    have route : nextHop ∈ sr.routingTable :=
      (bestMatchLoop_mem matched).resolve_right (by simp)
    refine beginForward_begun route ?_ h
    rw [length_recomputeIpSum]
    exact Nat.le_of_not_lt long

theorem beginArpPacket_begun {sr sr' : Sr} {buf : List UInt8} {interface : IfName}
    {packet : PacketThread} (h : sr.beginArpPacket env buf interface = some (sr', packet)) :
    Begun env sr sr' packet := by
  unfold Sr.beginArpPacket at h
  split at h
  · obtain ⟨rfl, rfl⟩ := Prod.mk.inj (Option.some.inj h)
    exact .done .refl
  dsimp only at h
  split at h
  · split at h
    · cases h
    · split at h
      · obtain ⟨rfl, rfl⟩ := Prod.mk.inj (Option.some.inj h)
        exact .done .refl
      · obtain ⟨rfl, rfl⟩ := Prod.mk.inj (Option.some.inj h)
        exact .done (send_moves sr _ _ (.inr (.inl rfl)))
  split at h
  · split at h
    · rename_i absent
      obtain ⟨rfl, rfl⟩ := Prod.mk.inj (Option.some.inj h)
      have absent : sr.cache.findReq (env.getU32 arSip buf) = none := absent
      refine .done (.single (.table sr _ _ ?_))
      exact unlinkIp_of_findReq_none absent
    · rename_i req live
      obtain ⟨rfl, rfl⟩ := Prod.mk.inj (Option.some.inj h)
      exact .resolving live
  · obtain ⟨rfl, rfl⟩ := Prod.mk.inj (Option.some.inj h)
    exact .done .refl

theorem beginPacket_begun {sr sr' : Sr} {buf : List UInt8} {interface : IfName}
    {packet : PacketThread} (h : sr.beginPacket env buf interface = some (sr', packet)) :
    Begun env sr sr' packet := by
  unfold Sr.beginPacket at h
  split at h
  · exact beginArpPacket_begun h
  split at h
  · exact beginIpPacket_begun h
  · obtain ⟨rfl, rfl⟩ := Prod.mk.inj (Option.some.inj h)
    exact .done .refl

/-! ## Runs of the router -/

/-- An operation of the router is a run of its threads. -/
theorem Threads.run_step {sr sr' : Sr} {op : Op} (accesses : List Access)
    (h : NetLabs.Router.Step env sr op sr') :
    ∃ turns accesses', Run (Threads.Step env) ⟨sr, .idle, accesses⟩ turns
      ⟨sr', .idle, accesses'⟩ := by
  cases op with
  | timeout =>
    have swept : sr.srArpcacheTimeout env = some sr' := h
    have turn : Threads.Step env ⟨sr, .idle, accesses⟩ .sweep ⟨sr', .idle,
        accesses ++ (sr'.trace.drop sr.trace.length).filterMap Event.access?⟩ := by
      show Option.map _ _ = _
      rw [swept]
      rfl
    exact ⟨[.sweep], _, .single turn⟩
  | frame packet interface =>
    have handled : sr.srHandlepacket env packet interface = some sr' := h
    rw [srHandlepacket_eq, Option.bind_eq_some_iff] at handled
    obtain ⟨⟨sr₁, begun⟩, first, rest⟩ := handled
    have taken : Threads.Step env ⟨sr, .idle, accesses⟩ (.frame packet interface)
        ⟨sr₁, begun, accesses ++ begun.taken⟩ := by
      show Option.map _ _ = _
      rw [first]
      rfl
    have live : ∀ request ∈ begun.held, ∃ req, sr₁.cache.deref request = some req := by
      intro request held
      cases beginPacket_begun first <;> cases held
    have rest : (⟨sr₁, begun, accesses ++ begun.taken⟩ : Threads).sr.finish env begun =
        some sr' := rest
    obtain ⟨n, accesses', hrun⟩ := Threads.run_finish live rest
    exact ⟨.frame packet interface :: List.replicate n .resume, accesses',
      (Run.single taken).trans hrun⟩

/-- Every run of the router is a run of its threads in which the timeout thread
waits until the packet thread is done. -/
theorem Threads.run_of_run {sr sr' : Sr} {ops : List Op} (accesses : List Access)
    (h : Run (NetLabs.Router.Step env) sr ops sr') :
    ∃ turns accesses', Run (Threads.Step env) ⟨sr, .idle, accesses⟩ turns
      ⟨sr', .idle, accesses'⟩ := by
  induction h with
  | nil => exact ⟨[], accesses, .nil⟩
  | snoc _ hstep ih =>
    obtain ⟨turns, accesses₁, before⟩ := ih
    obtain ⟨more, accesses₂, after⟩ := Threads.run_step accesses₁ hstep
    exact ⟨turns ++ more, accesses₂, before.trans after⟩

end NetLabs.Router
