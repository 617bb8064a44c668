/-
NetLabs.Router.SlowPath — packets that wait for their next hop leave as packets
that do not.

`process_ip_packet` sends a packet with a resolved next hop itself;
`process_arp_packet` sends those that had to wait. The second takes the
interface from where the reply arrived, not from `iface` of the queued packet,
which is "the outgoing interface", and it walks a list that was built by
pushing to the front. So the two transmit the same sequence exactly if every
packet is routed through the interface of the reply and the sequence, without
MAC addresses, is a palindrome, as long as the request is not given up before
the reply (`slow_path_eq_fast_path_iff`).

`Pending` is a request as far as packets that wait for it can tell. A packet
that arrives does to it what `arrive` says, and the retries depend on the
clock alone (`outlasts`).
-/
import NetLabs.Lib.Ledger
import NetLabs.Router.Queue
import NetLabs.Router.Rewriting
import Mathlib.Data.List.Palindrome

namespace NetLabs.Router

open NetLabs.Lib ArpCache

variable {env : Env}

/-! ## What is transmitted for packets -/

/-- The interface and the frame, if the event forwards a packet. -/
def Event.forwarded? : Event → Option (IfName × List UInt8)
  | .sent .forward iface frame => some (iface, frame)
  | .sent (.replay _ _ _) iface frame => some (iface, frame)
  | _ => none

/-- What was transmitted of packets to forward. -/
def Sr.forwarded (sr : Sr) : List (IfName × List UInt8) := sr.trace.filterMap Event.forwarded?

/-- The frame as it leaves for `mac` on the interface of this name. -/
def Sr.outgoing (sr : Sr) (mac : Mac) (interface : IfName) (frame : List UInt8) :
    IfName × List UInt8 :=
  (interface, match sr.srGetInterface interface with
    | some intf => outFrame mac intf frame
    | none => [])

/-! ## Packets to forward -/

/-- A packet, the interface it arrives on, and its route. -/
structure Arrival where
  packet : List UInt8
  port : IfName
  nextHop : SrRt

def Arrival.op (a : Arrival) : Op := .frame a.packet a.port

/-- The packet is to be forwarded by its route, to the next hop `n`. -/
structure Arrival.Forwardable (env : Env) (sr : Sr) (n : UInt32) (a : Arrival) : Prop where
  type : ethertype env a.packet = ethertypeIp
  long : ipHdrSize + etherHdrSize ≤ a.packet.length
  sum : env.getSum ipSum (recomputeIpSum env a.packet) = env.getSum ipSum a.packet
  foreign : sr.getInterfaceFromIp (env.getU32 ipDst a.packet) = none
  ttl : ¬ 1 ≥ env.getU8 ipTtl a.packet
  route : bestMatchLoop env (env.getU32 ipDst a.packet) none sr.routingTable = some a.nextHop
  gw : a.nextHop.gw = n

instance (env : Env) (sr : Sr) (n : UInt32) (a : Arrival) : Decidable (a.Forwardable env sr n) :=
  decidable_of_iff
    (ethertype env a.packet = ethertypeIp ∧ ipHdrSize + etherHdrSize ≤ a.packet.length ∧
      env.getSum ipSum (recomputeIpSum env a.packet) = env.getSum ipSum a.packet ∧
      sr.getInterfaceFromIp (env.getU32 ipDst a.packet) = none ∧ ¬ 1 ≥ env.getU8 ipTtl a.packet ∧
      bestMatchLoop env (env.getU32 ipDst a.packet) none sr.routingTable = some a.nextHop ∧
      a.nextHop.gw = n)
    ⟨fun ⟨type, long, sum, foreign, ttl, route, gw⟩ => ⟨type, long, sum, foreign, ttl, route, gw⟩,
      fun h => ⟨h.type, h.long, h.sum, h.foreign, h.ttl, h.route, h.gw⟩⟩

theorem Arrival.Forwardable.of_config {sr sr' : Sr} {n : UInt32} {a : Arrival}
    (h : a.Forwardable env sr n)
    (config : sr'.ifList = sr.ifList ∧ sr'.routingTable = sr.routingTable) :
    a.Forwardable env sr' n := by
  obtain ⟨ifList, table⟩ := config
  constructor
  · exact h.type
  · exact h.long
  · exact h.sum
  · unfold Sr.getInterfaceFromIp
    rw [ifList]
    exact h.foreign
  · exact h.ttl
  · rw [table]
    exact h.route
  · exact h.gw

theorem Arrival.Forwardable.route_mem {sr : Sr} {n : UInt32} {a : Arrival}
    (h : a.Forwardable env sr n) : a.nextHop ∈ sr.routingTable :=
  (bestMatchLoop_mem h.route).resolve_right nofun

/-- A packet to forward is forwarded. -/
theorem Arrival.Forwardable.step_eq {sr : Sr} {n : UInt32} {a : Arrival}
    (h : a.Forwardable env sr n) :
    sr.apply env a.op = sr.forwardPacket env a.packet a.nextHop := by
  have long := h.long
  have valid : recomputeIpSum env a.packet = a.packet := recomputeIpSum_of_valid long h.sum
  rw [Arrival.op, Sr.apply, Sr.srHandlepacket, h.type, if_neg (by decide), if_pos rfl,
    Sr.processIpPacket, if_neg (by omega)]
  dsimp only
  rw [valid, if_neg (by simp), h.foreign]
  dsimp only
  rw [if_neg h.ttl, h.route]

/-! ## The fast path -/

/-- A packet with a resolved next hop is sent on the interface of its route. -/
theorem fast_arrival {s : Sr} {n : UInt32} {a : Arrival} {entry : ArpEntry} (ported : s.Ported)
    (fw : a.Forwardable env s n) (resolved : s.cache.srArpcacheLookup n = some entry) :
    Step env s a.op (s.log (.sent .forward a.nextHop.interface
      (s.outgoing entry.mac a.nextHop.interface (rewritten env a.packet)).2)) := by
  have long : etherHdrSize ≤ (rewritten env a.packet).length := by
    rw [length_rewritten]
    exact le_trans (by decide) fw.long
  obtain ⟨intf, found⟩ := ported a.nextHop fw.route_mem
  have name := Sr.name_of_srGetInterface found
  have frame := forwardFrame_eq entry.mac intf long
  have source : env.get etherShost (outFrame entry.mac intf (rewritten env a.packet)) =
      intf.addr.bytes := by
    rw [← replayFrame_eq _ _ long]
    exact replayFrame_source entry.mac intf long
  have sent : s.srSendPacket .forward (outFrame entry.mac intf (rewritten env a.packet))
      a.nextHop.interface = s.log (.sent .forward a.nextHop.interface
        (outFrame entry.mac intf (rewritten env a.packet))) :=
    Sr.srSendPacket_sent env _ found (by rw [length_outFrame _ _ long]; exact long) source
  unfold Step Sr.outgoing
  rw [fw.step_eq, Sr.forwardPacket]
  dsimp only
  rw [fw.gw, resolved]
  dsimp only
  rw [found]
  dsimp only
  rw [name]
  show some (s.srSendPacket .forward (etherShost.set intf.addr.bytes
    (etherDhost.set entry.mac.bytes (rewritten env a.packet))) _) = _
  rw [frame, sent]

/-- With a resolved next hop packets leave as they arrive. -/
theorem fast_run {s : Sr} {n : UInt32} {arrivals : List Arrival} {entry : ArpEntry}
    (ported : s.Ported) (fw : ∀ a ∈ arrivals, a.Forwardable env s n)
    (resolved : s.cache.srArpcacheLookup n = some entry) :
    ∃ t, Run (Step env) s (arrivals.map Arrival.op) t ∧
      t.forwarded = s.forwarded ++ arrivals.map fun a =>
        s.outgoing entry.mac a.nextHop.interface (rewritten env a.packet) := by
  induction arrivals generalizing s with
  | nil => exact ⟨s, .nil, (List.append_nil _).symm⟩
  | cons a rest ih =>
    have first := fast_arrival ported (fw a List.mem_cons_self) resolved
    set u := s.log (.sent .forward a.nextHop.interface
      (s.outgoing entry.mac a.nextHop.interface (rewritten env a.packet)).2)
    have fw' : ∀ b ∈ rest, b.Forwardable env u n :=
      fun b hb => (fw b (List.mem_cons_of_mem a hb)).of_config ⟨rfl, rfl⟩
    have ported' : u.Ported := ported
    have resolved' : u.cache.srArpcacheLookup n = some entry := resolved
    obtain ⟨t, others, forwarded⟩ := ih ported' fw' resolved'
    refine ⟨t, (Run.single first).trans others, ?_⟩
    have sent : u.forwarded = s.forwarded ++
        [s.outgoing entry.mac a.nextHop.interface (rewritten env a.packet)] :=
      List.filterMap_append
    rw [forwarded, sent, List.append_assoc]
    rfl

/-! ## A request, as far as waiting packets can tell -/

/-- The retry fields of a request and its packets, the newest first. -/
structure Pending where
  sent : Int
  timesSent : Nat
  bufs : List (List UInt8)
  deriving DecidableEq, Repr

/-- A request that was just made. -/
def Pending.new : Pending := ⟨0, 0, []⟩

/-- The retry fields after a visit at the reading `now`, with the reading
stored if there is a broadcast; none if the request is given up. -/
def retry (now stored : Int) (sent : Int) (timesSent : Nat) : Option (Int × Nat) :=
  if now - sent ≥ 1 then if timesSent < 5 then some (stored, timesSent + 1) else none
  else some (sent, timesSent)

/-- What a packet that arrives does to the request for its next hop. -/
def arrive (now stored : Int) (buf : List UInt8) (request : Option Pending) : Option Pending :=
  let p := request.getD .new
  (retry now stored p.sent p.timesSent).map fun (sent, timesSent) =>
    ⟨sent, timesSent, buf :: p.bufs⟩

/-- Packets arrive one after the other; each visit has two readings. -/
def arriveAll (env : Env) : Nat → List (List UInt8) → Option Pending → Option Pending
  | _, [], request => request
  | ticks, buf :: rest, request =>
      arriveAll env (ticks + 2) rest
        (arrive (env.time ticks) (env.time (ticks + 1)) buf request)

/-- The readings of `k` visits do not exhaust the retries of a request. -/
def outlasts (env : Env) : Nat → Nat → Int → Nat → Bool
  | _, 0, _, _ => true
  | ticks, k + 1, sent, timesSent =>
      match retry (env.time ticks) (env.time (ticks + 1)) sent timesSent with
      | none => false
      | some (sent, timesSent) => outlasts env (ticks + 2) k sent timesSent

/-- The packets that wait with a request. -/
def heldBufs (request : Option Pending) : List (List UInt8) := (request.map Pending.bufs).getD []

/-- While the request lasts it holds every packet. -/
theorem arriveAll_of_outlasts {ticks : Nat} {bufs : List (List UInt8)} {p : Pending}
    (h : outlasts env ticks bufs.length p.sent p.timesSent = true) :
    heldBufs (arriveAll env ticks bufs (some p)) = bufs.reverse ++ p.bufs := by
  induction bufs generalizing ticks p with
  | nil => rfl
  | cons buf rest ih =>
    rw [List.length_cons, outlasts] at h
    rw [arriveAll, arrive, Option.getD_some]
    cases visit : retry (env.time ticks) (env.time (ticks + 1)) p.sent p.timesSent with
    | none => simp [visit] at h
    | some fields =>
      rw [visit] at h
      rw [Option.map_some, ih h]
      simp

/-- A request never holds more packets than arrived. -/
theorem length_heldBufs_le (env : Env) (ticks : Nat) (bufs : List (List UInt8))
    (request : Option Pending) :
    (heldBufs (arriveAll env ticks bufs request)).length ≤
      (heldBufs request).length + bufs.length := by
  induction bufs generalizing ticks request with
  | nil => exact Nat.le_refl _
  | cons buf rest ih =>
    have one : (heldBufs (arrive (env.time ticks) (env.time (ticks + 1)) buf request)).length ≤
        (heldBufs request).length + 1 := by
      unfold arrive
      dsimp only
      cases retry (env.time ticks) (env.time (ticks + 1)) (request.getD .new).sent
          (request.getD .new).timesSent with
      | none => exact Nat.zero_le _
      | some fields => cases request <;> exact Nat.le_refl _
    have more := ih (ticks + 2) (arrive (env.time ticks) (env.time (ticks + 1)) buf request)
    rw [arriveAll, List.length_cons]
    omega

/-- A request that was given up lost packets. -/
theorem length_heldBufs_lt {ticks : Nat} {bufs : List (List UInt8)} {p : Pending}
    (h : outlasts env ticks bufs.length p.sent p.timesSent = false) :
    (heldBufs (arriveAll env ticks bufs (some p))).length < p.bufs.length + bufs.length := by
  induction bufs generalizing ticks p with
  | nil => simp [outlasts] at h
  | cons buf rest ih =>
    rw [List.length_cons, outlasts] at h
    rw [arriveAll, arrive, Option.getD_some, List.length_cons]
    cases visit : retry (env.time ticks) (env.time (ticks + 1)) p.sent p.timesSent with
    | none =>
      have rest := length_heldBufs_le env (ticks + 2) rest none
      have nothing : (heldBufs none).length = 0 := rfl
      rw [Option.map_none]
      omega
    | some fields =>
      obtain ⟨sent, timesSent⟩ := fields
      rw [visit] at h
      have fewer : (heldBufs (arriveAll env (ticks + 2) rest
          (some ⟨sent, timesSent, buf :: p.bufs⟩))).length <
          (buf :: p.bufs).length + rest.length := ih h
      rw [List.length_cons] at fewer
      rw [Option.map_some]
      dsimp only
      omega

theorem heldBufs_getD (request : Option Pending) :
    heldBufs request = (request.getD .new).bufs := by
  cases request <;> rfl

/-- Without a request the first packet finds a new one. -/
theorem heldBufs_arriveAll (env : Env) (ticks : Nat) (bufs : List (List UInt8))
    (request : Option Pending) :
    heldBufs (arriveAll env ticks bufs request) =
      heldBufs (arriveAll env ticks bufs (some (request.getD .new))) := by
  cases request with
  | some p => rfl
  | none => cases bufs <;> rfl

/-! ## The slow path -/

/-- The request for `ip`, as far as waiting packets can tell. -/
def ArpReq.toPending (req : ArpReq) : Pending :=
  ⟨req.sent, req.timesSent, req.packets.map SrPacket.buf⟩

def Sr.pending (sr : Sr) (ip : UInt32) : Option Pending :=
  (sr.cache.findReq ip).map ArpReq.toPending

/-- Queueing a packet puts it in front of those that wait with its request. -/
theorem enqueue_request {s : Sr} {ip : UInt32} {buf : List UInt8} {iface : IfName}
    (inv : QueueInv s) (nonempty : buf.length ≠ 0) :
    ∃ req ∈ (s.enqueue ip buf iface).1.cache.requests,
      req.addr = (s.enqueue ip buf iface).2 ∧ req.ip = ip ∧
      req.toPending = { (s.pending ip).getD .new with
        bufs := buf :: ((s.pending ip).getD .new).bufs } := by
  rcases enqueue_cases s ip iface nonempty with ⟨absent, eq⟩ | ⟨before, req, after, split, hip, eq⟩
  · have none : s.pending ip = none := by
      rw [Sr.pending, ArpCache.findReq, List.find?_eq_none.mpr fun r hr => by
        simpa using absent r hr]
      rfl
    rw [eq, none]
    exact ⟨_, List.mem_cons_self, rfl, rfl, rfl⟩
  · have mine : req ∈ s.cache.requests := by simp [split]
    have some : s.pending ip = some req.toPending := by
      rw [Sr.pending, ← hip, findReq_of_mem inv.ips mine]
      rfl
    rw [eq, some]
    exact ⟨_, List.mem_append_right _ List.mem_cons_self, rfl, hip, rfl⟩

/-- A visit to a request is a retry. -/
theorem processArpreq_pending {s t : Sr} {req : ArpReq} (inv : QueueInv s)
    (live : req ∈ s.cache.requests) (h : s.processArpreq env req.addr = some t) :
    t.pending req.ip =
        (retry (env.time s.ticks) (env.time (s.ticks + 1)) req.sent req.timesSent).map
          (fun (sent, timesSent) => ⟨sent, timesSent, req.packets.map SrPacket.buf⟩) ∧
      t.cache.entries = s.cache.entries ∧ t.ticks = s.ticks + 2 ∧ t.forwarded = s.forwarded := by
  have inv' : QueueInv t := chain_invariant QueueInv queueInv_move (processArpreq_moves h) inv
  obtain ⟨same, found, haddr, outcome⟩ := processArpreq_cases h
  obtain rfl : same = req :=
    List.inj_on_of_nodup_map inv.addrs (List.mem_of_find?_eq_some found) live haddr
  obtain ⟨before, after, split, gone, -, -⟩ := split_of_find? found
  have other := addr_ne_of_split (split ▸ inv.addrs)
  unfold retry
  rcases outcome with ⟨early, rfl⟩ | ⟨due, few, packet, intf, -, -, rfl⟩ | ⟨due, many, rfl⟩
  · rw [if_neg (by omega)]
    refine ⟨?_, rfl, rfl, rfl⟩
    have here := findReq_of_mem inv'.ips live
    rw [Sr.pending, here]
    rfl
  · rw [if_pos due, if_pos few]
    refine ⟨?_, rfl, rfl, ?_⟩
    · set updated : ArpReq :=
        { same with timesSent := same.timesSent + 1, sent := env.time (s.ticks + 1) }
      have queue : (s.broadcast env same intf).cache.requests = before ++ updated :: after :=
        updateReq_split _ split other
      have here : (s.broadcast env same intf).cache.findReq updated.ip = some updated :=
        findReq_of_mem inv'.ips (by rw [queue]; simp)
      show ((s.broadcast env same intf).cache.findReq updated.ip).map _ = _
      rw [here]
      rfl
    · rw [Sr.forwarded, Sr.broadcast, List.filterMap_append]
      exact List.append_nil _
  · rw [if_pos due, if_neg (by omega)]
    refine ⟨?_, rfl, rfl, ?_⟩
    · have queue : (s.giveUp env same).cache.requests = before ++ after := gone
      have absent : (s.giveUp env same).cache.findReq same.ip = none := by
        rw [ArpCache.findReq, queue, List.find?_eq_none]
        intro r hr
        have hne : r.ip ≠ same.ip := key_ne_of_split (split ▸ inv.ips) r hr
        simpa using hne
      rw [Sr.pending, absent]
      rfl
    · have silent : (same.packets.map (s.unreachableEvent env same.addr)).filterMap
          Event.forwarded? = [] := by
        refine filterMap_no_entries fun p _ => ?_
        rcases unreachableEvent_cases env s same.addr p with eq | ⟨iface, frame, eq⟩ <;>
          rw [eq] <;> rfl
      rw [Sr.forwarded, Sr.giveUp, List.filterMap_append, List.filterMap_append, silent,
        List.append_nil]
      exact List.append_nil _

/-- A packet without a resolved next hop arrives at the request for it. -/
theorem slow_arrival {s : Sr} {n : UInt32} {a : Arrival} (inv : QueueInv s) (ported : s.Ported)
    (fw : a.Forwardable env s n) (unresolved : s.cache.srArpcacheLookup n = none) :
    ∃ t, Step env s a.op t ∧
      t.pending n = arrive (env.time s.ticks) (env.time (s.ticks + 1)) (rewritten env a.packet)
        (s.pending n) ∧
      t.cache.entries = s.cache.entries ∧ t.ticks = s.ticks + 2 ∧ t.forwarded = s.forwarded := by
  have long : ipHdrSize + etherHdrSize ≤ (rewritten env a.packet).length := by
    rw [length_rewritten]
    exact fw.long
  have nonempty : (rewritten env a.packet).length ≠ 0 := nonempty_of_long long
  set queued := s.enqueue n (rewritten env a.packet) a.nextHop.interface with def_queued
  obtain ⟨req, live, haddr, hip, fields⟩ : ∃ req ∈ queued.1.cache.requests,
      req.addr = queued.2 ∧ req.ip = n ∧ req.toPending = { (s.pending n).getD .new with
        bufs := rewritten env a.packet :: ((s.pending n).getD .new).bufs } :=
    enqueue_request inv nonempty
  have inv' : QueueInv queued.1 := by
    rw [def_queued, ← fw.gw]
    exact queueInv_enqueue inv fw.route_mem long
  have ported' : queued.1.Ported := ported
  obtain ⟨t, visited⟩ : ∃ t, queued.1.processArpreq env req.addr = some t :=
    processArpreq_total inv' ported' live
  obtain ⟨pending, entries, ticks, forwarded⟩ := processArpreq_pending inv' live visited
  refine ⟨t, ?_, ?_, entries, ticks, forwarded.trans ?_⟩
  · unfold Step
    rw [fw.step_eq, Sr.forwardPacket]
    dsimp only
    rw [fw.gw, unresolved]
    rw [haddr] at visited
    exact visited
  · have sent : req.sent = ((s.pending n).getD .new).sent := congrArg Pending.sent fields
    have times : req.timesSent = ((s.pending n).getD .new).timesSent :=
      congrArg Pending.timesSent fields
    have bufs : req.packets.map SrPacket.buf =
        rewritten env a.packet :: ((s.pending n).getD .new).bufs := congrArg Pending.bufs fields
    rw [hip, sent, times, bufs] at pending
    exact pending
  · rw [Sr.forwarded, def_queued, trace_enqueue, List.filterMap_append]
    exact List.append_nil _

/-- While packets arrive whose next hop is not resolved nothing is forwarded,
and they collect at the request. -/
theorem slow_run {s : Sr} {n : UInt32} {arrivals : List Arrival} (inv : QueueInv s)
    (ported : s.Ported) (fw : ∀ a ∈ arrivals, a.Forwardable env s n)
    (unresolved : s.cache.srArpcacheLookup n = none) :
    ∃ t, Run (Step env) s (arrivals.map Arrival.op) t ∧
      t.pending n = arriveAll env s.ticks (arrivals.map fun a => rewritten env a.packet)
        (s.pending n) ∧
      t.forwarded = s.forwarded ∧ QueueInv t ∧ t.ifList = s.ifList := by
  induction arrivals generalizing s with
  | nil => exact ⟨s, .nil, rfl, rfl, inv, rfl⟩
  | cons a rest ih =>
    obtain ⟨u, first, pending, entries, ticks, forwarded⟩ :=
      slow_arrival inv ported (fw a List.mem_cons_self) unresolved
    have inv' : QueueInv u := step_invariant QueueInv queueInv_move queueInv_enqueue inv first
    have config : u.ifList = s.ifList ∧ u.routingTable = s.routingTable := Step.config first
    have unresolved' : u.cache.srArpcacheLookup n = none := by
      rw [ArpCache.srArpcacheLookup, entries]
      exact unresolved
    have fw' : ∀ b ∈ rest, b.Forwardable env u n :=
      fun b hb => (fw b (List.mem_cons_of_mem a hb)).of_config config
    obtain ⟨t, others, pending', forwarded', inv'', ifList⟩ :=
      ih inv' (ported.of_config config) fw' unresolved'
    refine ⟨t, (Run.single first).trans others, ?_, forwarded'.trans forwarded, inv'',
      ifList.trans config.1⟩
    rw [pending', ticks, pending, List.map_cons, arriveAll]

/-! ## The reply -/

/-- The frame is an ARP reply that binds `n` to `mac`. -/
structure IsReply (env : Env) (n : UInt32) (mac : Mac) (reply : List UInt8) : Prop where
  type : ethertype env reply = ethertypeArp
  long : arpHdrSize + etherHdrSize ≤ reply.length
  op : env.getU16 arOp reply = arpOpReply
  ip : env.getU32 arSip reply = n
  mac : env.getMac arSha.off reply = mac

/-- What waits for `n` is sent from the front of the list. -/
theorem replay_forwarded (env : Env) {s : Sr} {req : ArpReq} {mac : Mac} {interface : IfName}
    {intf : SrIf}
    (inv : QueueInv s) (mine : req ∈ s.cache.requests)
    (found : s.srGetInterface interface = some intf) (ip : UInt32) :
    (req.packets.map (s.replayEvent interface intf ip mac)).filterMap Event.forwarded? =
      (req.packets.map SrPacket.buf).map (s.outgoing mac interface) := by
  rw [List.map_map]
  refine filterMap_entries fun p hp => ?_
  have long : ipHdrSize + etherHdrSize ≤ p.buf.length :=
    inv.long p (Sr.mem_waiting mine hp)
  rw [replayEvent_eq env found long, replayFrame_eq mac intf (le_trans (by decide) long)]
  show some _ = some (s.outgoing mac interface p.buf)
  rw [Sr.outgoing, found]

/-- The reply sends what waits, on the interface it came on. -/
theorem reply_forwarded {s : Sr} {n : UInt32} {mac : Mac} {reply : List UInt8}
    {interface : IfName} {intf : SrIf} (inv : QueueInv s) (isReply : IsReply env n mac reply)
    (found : s.srGetInterface interface = some intf) :
    ∃ t, Step env s (.frame reply interface) t ∧
      t.forwarded = s.forwarded ++
        (heldBufs (s.pending n)).map (s.outgoing mac interface) := by
  have long : ¬ arpHdrSize + etherHdrSize > reply.length := not_lt.mpr isReply.long
  have handled : s.apply env (.frame reply interface) =
      s.processArpPacket env reply interface := by
    rw [Sr.apply, Sr.srHandlepacket, isReply.type, if_pos rfl]
  unfold Step Sr.pending
  rw [handled]
  obtain ⟨t, processed⟩ : ∃ t, s.processArpPacket env reply interface = some t := by
    rw [Sr.processArpPacket, if_neg long, isReply.op, if_neg (by decide), if_pos rfl, found]
    dsimp only
    split
    · exact ⟨_, rfl⟩
    · rw [Sr.replayLoop_some]
      exact ⟨_, rfl⟩
  refine ⟨t, processed, ?_⟩
  rcases arpReply_cases long isReply.op isReply.mac isReply.ip processed with
    ⟨idle, rfl⟩ | ⟨req, live, -, ⟨empty, rfl⟩ | ⟨intf', found', rfl⟩⟩
  · rw [idle]
    exact (List.append_nil _).symm
  · exact (inv.nonempty req (List.mem_of_find?_eq_some live) empty).elim
  · rw [live]
    obtain rfl : intf = intf' := Option.some.inj (found.symm.trans found')
    have sent : (req.packets.map (s.replayEvent interface intf req.ip mac)).filterMap
        Event.forwarded? = (req.packets.map SrPacket.buf).map (s.outgoing mac interface) :=
      replay_forwarded env inv (List.mem_of_find?_eq_some live) found req.ip
    exact (List.filterMap_append).trans (congrArg (s.forwarded ++ ·) sent)

/-! ## The two sequences -/

/-- Whether two lists have the same images depends only on which elements have
the same image. -/
theorem map_eq_map_iff_of_kernel {α β γ : Type} {f : α → β} {g : α → γ} {l m : List α}
    (kernel : ∀ a ∈ l, ∀ b ∈ m, f a = f b ↔ g a = g b) :
    l.map f = m.map f ↔ l.map g = m.map g := by
  induction l generalizing m with
  | nil => simp [eq_comm]
  | cons a l ih =>
    cases m with
    | nil => simp
    | cons b m =>
      have rest : l.map f = m.map f ↔ l.map g = m.map g :=
        ih fun x hx y hy => kernel x (List.mem_cons_of_mem a hx) y (List.mem_cons_of_mem b hy)
      rw [List.map_cons, List.map_cons, List.map_cons, List.map_cons, List.cons_eq_cons,
        List.cons_eq_cons, kernel a List.mem_cons_self b List.mem_cons_self, rest]

theorem outgoing_congr {s t : Sr} (ifList : t.ifList = s.ifList) : t.outgoing = s.outgoing := by
  funext mac interface frame
  rw [Sr.outgoing, Sr.outgoing, Sr.srGetInterface, Sr.srGetInterface, ifList]

/-- Frames to the same MAC on the same interface differ exactly if the packets
differ behind their MAC addresses. -/
theorem outgoing_rewritten_inj {sr : Sr} {n : UInt32} {a b : Arrival} {interface : IfName}
    {intf : SrIf} (found : sr.srGetInterface interface = some intf) (mac : Mac)
    (fa : a.Forwardable env sr n) (fb : b.Forwardable env sr n) :
    sr.outgoing mac interface (rewritten env a.packet) =
        sr.outgoing mac interface (rewritten env b.packet) ↔
      afterMacs a.packet = afterMacs b.packet := by
  rw [← afterMacs_rewritten_inj fa.long fb.long (recomputeIpSum_of_valid fa.long fa.sum)
    (recomputeIpSum_of_valid fb.long fb.sum), Sr.outgoing, Sr.outgoing, found]
  simp [outFrame]

/-- What it takes for packets that wait for `n` until a reply arrives on the
interface to leave as if they had not waited. -/
structure Reproduced (env : Env) (sr : Sr) (n : UInt32) (interface : IfName)
    (arrivals : List Arrival) : Prop where
  /-- The request is not given up while the packets arrive. -/
  patient : outlasts env sr.ticks arrivals.length ((sr.pending n).getD .new).sent
    ((sr.pending n).getD .new).timesSent = true
  /-- The reply arrives on the interface of every route. -/
  port : ∀ a ∈ arrivals, a.nextHop.interface = interface
  /-- The packets are the same from back to front. -/
  mirrored : (arrivals.map fun a => afterMacs a.packet).Palindrome

instance (env : Env) (sr : Sr) (n : UInt32) (interface : IfName) (arrivals : List Arrival) :
    Decidable (Reproduced env sr n interface arrivals) :=
  decidable_of_iff
    (outlasts env sr.ticks arrivals.length ((sr.pending n).getD .new).sent
        ((sr.pending n).getD .new).timesSent = true ∧
      (∀ a ∈ arrivals, a.nextHop.interface = interface) ∧
      (arrivals.map fun a => afterMacs a.packet).Palindrome)
    ⟨fun ⟨patient, port, mirrored⟩ => ⟨patient, port, mirrored⟩,
      fun h => ⟨h.patient, h.port, h.mirrored⟩⟩

/-- Packets leave in the reverse order as they would in the order of arrival
exactly if they are the same from back to front. -/
theorem reversed_eq_iff {sr : Sr} {n : UInt32} {arrivals : List Arrival} {interface : IfName}
    {intf : SrIf} (found : sr.srGetInterface interface = some intf) (mac : Mac)
    (fw : ∀ a ∈ arrivals, a.Forwardable env sr n) :
    (arrivals.map fun a => rewritten env a.packet).reverse.map (sr.outgoing mac interface) =
        (arrivals.map fun a => sr.outgoing mac interface (rewritten env a.packet)) ↔
      (arrivals.map fun a => afterMacs a.packet).Palindrome := by
  have sent : (arrivals.map fun a => rewritten env a.packet).reverse.map
      (sr.outgoing mac interface) =
      arrivals.reverse.map fun a => sr.outgoing mac interface (rewritten env a.packet) := by
    rw [← List.map_reverse, List.map_map]
    rfl
  rw [sent, List.Palindrome.iff_reverse_eq, ← List.map_reverse]
  exact map_eq_map_iff_of_kernel fun a ha b hb =>
    outgoing_rewritten_inj found mac (fw a (List.mem_reverse.mp ha)) (fw b hb)

/-- The list of a request against the order of arrival. -/
theorem held_eq_iff {sr : Sr} {n : UInt32} {arrivals : List Arrival} {interface : IfName}
    {intf : SrIf} (found : sr.srGetInterface interface = some intf) (mac : Mac)
    (fw : ∀ a ∈ arrivals, a.Forwardable env sr n) :
    (heldBufs (arriveAll env sr.ticks (arrivals.map fun a => rewritten env a.packet)
        (sr.pending n))).map (sr.outgoing mac interface) =
      (arrivals.map fun a => sr.outgoing mac a.nextHop.interface (rewritten env a.packet)) ++
        (heldBufs (sr.pending n)).map (sr.outgoing mac interface) ↔
      Reproduced env sr n interface arrivals := by
  set p := (sr.pending n).getD .new with def_p
  set bufs := arrivals.map fun a => rewritten env a.packet with def_bufs
  have count : bufs.length = arrivals.length := List.length_map _
  rw [heldBufs_arriveAll, heldBufs_getD (sr.pending n), ← def_p]
  cases patient : outlasts env sr.ticks arrivals.length p.sent p.timesSent with
  | false =>
    have fewer : (heldBufs (arriveAll env sr.ticks bufs (some p))).length <
        p.bufs.length + bufs.length := length_heldBufs_lt (count ▸ patient)
    constructor
    · intro same
      have lengths := congrArg List.length same
      simp only [List.length_append, List.length_map] at lengths
      omega
    · intro h
      have := h.patient
      rw [← def_p, patient] at this
      cases this
  | true =>
    have held : heldBufs (arriveAll env sr.ticks bufs (some p)) = bufs.reverse ++ p.bufs :=
      arriveAll_of_outlasts (count ▸ patient)
    have mirror := reversed_eq_iff found mac fw
    rw [held, List.map_append, List.append_left_inj]
    constructor
    · intro same
      have port : ∀ a ∈ arrivals, a.nextHop.interface = interface := by
        intro a ha
        have out : sr.outgoing mac a.nextHop.interface (rewritten env a.packet) ∈
            bufs.reverse.map (sr.outgoing mac interface) := same ▸ List.mem_map_of_mem ha
        obtain ⟨buf, -, eq⟩ := List.mem_map.mp out
        exact (congrArg Prod.fst eq).symm
      refine ⟨patient, port, mirror.mp (same.trans ?_)⟩
      exact List.map_congr_left fun a ha => by rw [port a ha]
    · intro h
      refine (mirror.mpr h.mirrored).trans ?_
      exact List.map_congr_left fun a ha => by rw [h.port a ha]

/-- What was forwarded since. -/
def Sr.forwardedSince (sr start : Sr) : List (IfName × List UInt8) :=
  sr.forwarded.drop start.forwarded.length

/-- **The slow path is the fast path** exactly if the request outlasts the
arrivals, the reply comes in where the packets go out, and the packets read
the same backwards. Packets that waited for `n` before follow in either case. -/
theorem slow_path_eq_fast_path_iff {ifList : List SrIf} {routingTable : List SrRt} {ops : List Op}
    {slow fast : Sr} {n : UInt32} {mac : Mac} {entry : ArpEntry} {arrivals : List Arrival}
    {reply : List UInt8} {interface : IfName} {intf : SrIf}
    (reached : Run (Step env) (srInit ifList routingTable) ops slow) (ported : slow.Ported)
    (config : fast.ifList = slow.ifList ∧ fast.routingTable = slow.routingTable)
    (unresolved : slow.cache.srArpcacheLookup n = none)
    (resolved : fast.cache.srArpcacheLookup n = some entry) (bound : entry.mac = mac)
    (fw : ∀ a ∈ arrivals, a.Forwardable env slow n) (isReply : IsReply env n mac reply)
    (found : slow.srGetInterface interface = some intf) :
    ∃ slow' fast',
      slow.applyAll env (arrivals.map Arrival.op ++ [.frame reply interface]) = some slow' ∧
      fast.applyAll env (arrivals.map Arrival.op) = some fast' ∧
      (slow'.forwardedSince slow = fast'.forwardedSince fast ++
          (heldBufs (slow.pending n)).map (slow.outgoing mac interface) ↔
        Reproduced env slow n interface arrivals) := by
  have inv : QueueInv slow := queueInv_run (queueInv_init ifList routingTable) reached
  obtain ⟨waiting, arrived, pending, nothing, inv', same⟩ := slow_run inv ported fw unresolved
  have found' : waiting.srGetInterface interface = some intf := by
    rw [Sr.srGetInterface, same]
    exact found
  obtain ⟨slow', replied, sent⟩ := reply_forwarded inv' isReply found'
  obtain ⟨fast', left, forwarded⟩ := fast_run (ported.of_config config)
    (fun a ha => (fw a ha).of_config config) resolved
  refine ⟨slow', fast', run_iff_applyAll.mp (.snoc arrived replied), run_iff_applyAll.mp left, ?_⟩
  rw [Sr.forwardedSince, sent, nothing, List.drop_left, pending, outgoing_congr same,
    Sr.forwardedSince, forwarded, List.drop_left, outgoing_congr config.1, bound]
  exact held_eq_iff found mac fw

/-- The small router after it learned the MAC address of its next hop. -/
def resolvedPorts : Sr := twoPorts.learn .counting (.local 7) 0x0a000102

/-- The packet `n` arrives at the small router. -/
def udpArrival (n : UInt8) : Arrival :=
  ⟨udpFrame (.local 1) n, eth0, ⟨0, 0x0a000102, 0, eth1⟩⟩

theorem twoPorts_ported : twoPorts.Ported := by
  intro node hnode
  obtain rfl := List.mem_singleton.mp hnode
  exact ⟨_, rfl⟩

/-- Three packets arrive, of which the last repeats the first. -/
theorem slow_path_eq_fast_path_mirrored :
    ∃ slow' fast',
      twoPorts.applyAll .counting ([udpArrival 1, udpArrival 2, udpArrival 1].map Arrival.op ++
        [.frame (replyFrame (.local 7)) eth1]) = some slow' ∧
      resolvedPorts.applyAll .counting
        ([udpArrival 1, udpArrival 2, udpArrival 1].map Arrival.op) = some fast' ∧
      slow'.forwardedSince twoPorts = fast'.forwardedSince resolvedPorts := by
  have start : Run (Step .counting) (srInit twoPorts.ifList twoPorts.routingTable) [] twoPorts :=
    .nil
  have config : resolvedPorts.ifList = twoPorts.ifList ∧
      resolvedPorts.routingTable = twoPorts.routingTable := ⟨rfl, rfl⟩
  have fw : ∀ a ∈ [udpArrival 1, udpArrival 2, udpArrival 1],
      a.Forwardable .counting twoPorts 0x0a000102 := by decide +kernel
  have resolved : resolvedPorts.cache.srArpcacheLookup 0x0a000102 =
      some ⟨.local 7, 0x0a000102, 1, true⟩ := by decide +kernel
  have isReply : IsReply .counting 0x0a000102 (.local 7) (replyFrame (.local 7)) := by
    constructor <;> decide +kernel
  have found : twoPorts.srGetInterface eth1 = some ⟨eth1, .local 2, 0x0a000101⟩ := rfl
  obtain ⟨slow', fast', waited, left, iff⟩ :=
    slow_path_eq_fast_path_iff start twoPorts_ported config (by decide) resolved rfl fw isReply
      found
  have same := iff.mpr (by decide +kernel)
  exact ⟨slow', fast', waited, left, same.trans (List.append_nil _)⟩

/-- Two packets that waited leave in the reverse order. -/
theorem waiting_packets_leave_reversed :
    ¬ ∀ (arrivals : List Arrival) (interface : IfName) (slow' fast' : Sr),
      (∀ a ∈ arrivals, a.Forwardable .counting twoPorts 0x0a000102) →
      twoPorts.applyAll .counting (arrivals.map Arrival.op ++
        [.frame (replyFrame (.local 7)) interface]) = some slow' →
      resolvedPorts.applyAll .counting (arrivals.map Arrival.op) = some fast' →
      slow'.forwardedSince twoPorts = fast'.forwardedSince resolvedPorts := by
  intro general
  have h := general [udpArrival 1, udpArrival 2] eth1 _ _ (by decide +kernel)
    (Option.some_get (by decide +kernel)).symm (Option.some_get (by decide +kernel)).symm
  revert h
  decide +kernel

end NetLabs.Router
