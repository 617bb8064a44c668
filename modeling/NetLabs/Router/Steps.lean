/-
NetLabs.Router.Steps — the elementary moves of the router, and its runs.

`Move` lists what the router does to its request queue, one constructor for
each kind of move, with the guard under which the code makes it. What
`process_arpreq` can do is said once, by `processArpreq_cases`; every other
function is a chain of moves. Queueing a packet stands outside `Move`: the
slow path of `process_ip_packet` starts with it, and nothing else does it.

`step_cases` says what an operation is, and `run_invariant` is the rule by
which what every move and queueing keep holds in every state of every run.
-/
import NetLabs.Lib.Lts
import NetLabs.Router.Frames

namespace NetLabs.Router

open NetLabs.Lib Relation ArpCache

variable {env : Env}

/-! ## The events of a function -/

/-- What `sr_send_packet` does with a frame. -/
def Sr.sendEvent (sr : Sr) (cause : Cause) (buf : List UInt8) (iface : IfName) : Event :=
  if buf.length < etherHdrSize ∨ sr.srEtherAddrsMatchInterface buf iface = false then
    .refused cause iface buf
  else .sent cause iface buf

theorem Sr.srSendPacket_eq (sr : Sr) (cause : Cause) (buf : List UInt8) (iface : IfName) :
    sr.srSendPacket cause buf iface = sr.log (sr.sendEvent cause buf iface) := by
  unfold Sr.srSendPacket Sr.sendEvent
  cases sr.srEtherAddrsMatchInterface buf iface <;> by_cases h : buf.length < etherHdrSize <;>
    simp [h]

/-- A frame that carries the MAC of its interface is sent. -/
theorem Sr.sendEvent_sent (env : Env) {sr : Sr} {buf : List UInt8} {iface : IfName} {intf : SrIf}
    (cause : Cause) (found : sr.srGetInterface iface = some intf)
    (long : etherHdrSize ≤ buf.length) (source : env.get etherShost buf = intf.addr.bytes) :
    sr.sendEvent cause buf iface = .sent cause iface buf := by
  have logged := congrArg Sr.trace
    ((sr.srSendPacket_eq cause buf iface).symm.trans
      (Sr.srSendPacket_sent env cause found long source))
  simpa [Sr.log] using logged

/-- What becomes of a packet of a request that is given up. -/
def Sr.unreachableEvent (env : Env) (sr : Sr) (request : Nat) (packet : SrPacket) : Event :=
  match sr.getInterfaceFromEth (env.getMac etherDhost.off packet.buf) with
  | none => .unmatched request packet
  | some sendingIntf =>
      match sr.srGetInterface sendingIntf.name with
      | none => .unmatched request packet
      | some outgoingInterface =>
          .sent (.unreachable request packet) sendingIntf.name
            (fabricatedIcmp env packet.buf 3 1 outgoingInterface none)

theorem unreachableEvent_cases (env : Env) (sr : Sr) (request : Nat) (packet : SrPacket) :
    sr.unreachableEvent env request packet = .unmatched request packet ∨
      ∃ iface frame, sr.unreachableEvent env request packet =
        .sent (.unreachable request packet) iface frame := by
  unfold Sr.unreachableEvent
  split
  · exact .inl rfl
  · split
    · exact .inl rfl
    · exact .inr ⟨_, _, rfl⟩

/-- What becomes of a packet of a request that is resolved. -/
def Sr.replayEvent (sr : Sr) (interface : IfName) (intf : SrIf) (ip : UInt32) (mac : Mac)
    (packet : SrPacket) : Event :=
  sr.sendEvent (.replay packet ip mac) (replayFrame mac intf packet.buf) interface

/-- A packet of a request that is resolved is sent. -/
theorem replayEvent_eq (env : Env) {sr : Sr} {interface : IfName} {intf : SrIf} {ip : UInt32}
    {mac : Mac} {packet : SrPacket} (found : sr.srGetInterface interface = some intf)
    (long : ipHdrSize + etherHdrSize ≤ packet.buf.length) :
    sr.replayEvent interface intf ip mac packet =
      .sent (.replay packet ip mac) interface (replayFrame mac intf packet.buf) := by
  have long' : etherHdrSize ≤ packet.buf.length := le_trans (by decide) long
  exact Sr.sendEvent_sent env _ found (by rw [length_replayFrame]; exact long')
    (replayFrame_source mac intf long')

theorem Sr.name_of_srGetInterface {sr : Sr} {name : IfName} {intf : SrIf}
    (found : sr.srGetInterface name = some intf) : intf.name = name := by
  simpa using List.find?_some found

/-- An interface that is on the list is found by its name, or another with
that name is. -/
theorem Sr.srGetInterface_of_mem {sr : Sr} {intf : SrIf} (h : intf ∈ sr.ifList) :
    ∃ out, sr.srGetInterface intf.name = some out :=
  Option.isSome_iff_exists.mp
    (List.find?_isSome.mpr ⟨intf, h, decide_eq_true rfl⟩)

/-- `process_arpreq` notifies the source of every packet it can match. -/
theorem Sr.unreachableLoop_eq (request : Nat) (packets : List SrPacket) (sr : Sr) :
    sr.unreachableLoop env request packets =
      some { sr with trace := sr.trace ++ packets.map (sr.unreachableEvent env request) } := by
  induction packets generalizing sr with
  | nil => simp [Sr.unreachableLoop]
  | cons packet rest ih =>
    have same : ∀ e, (sr.log e).unreachableEvent env request =
        sr.unreachableEvent env request := fun e => rfl
    rw [Sr.unreachableLoop, List.map_cons]
    cases matched : sr.getInterfaceFromEth (env.getMac etherDhost.off packet.buf) with
    | none =>
      have event : sr.unreachableEvent env request packet = .unmatched request packet := by
        rw [Sr.unreachableEvent, matched]
      dsimp only
      rw [ih, same, event]
      simp [Sr.log]
    | some intf =>
      obtain ⟨out, found⟩ := sr.srGetInterface_of_mem (List.mem_of_find?_eq_some matched)
      have event : sr.unreachableEvent env request packet =
          .sent (.unreachable request packet) intf.name
            (fabricatedIcmp env packet.buf 3 1 out none) := by
        rw [Sr.unreachableEvent, matched]
        dsimp only
        rw [found]
      have sent := sr.srSendPacket_sent env (.unreachable request packet) found
        (by rw [length_hostUnreachable]; decide) (hostUnreachable_source packet.buf out)
      dsimp only
      rw [Sr.sendFabricatedIcmpPacket, found]
      dsimp only
      rw [sent, ih, same, event]
      simp [Sr.log]

/-- `process_arp_packet` sends every packet of the request it resolves. -/
theorem Sr.replayLoop_some (interface : IfName) (intf : SrIf) (ip : UInt32) (mac : Mac)
    (packets : List SrPacket) (sr : Sr) :
    sr.replayLoop (some intf) interface ip mac packets = some { sr with
      trace := sr.trace ++ packets.map (sr.replayEvent interface intf ip mac) } := by
  induction packets generalizing sr with
  | nil => simp [Sr.replayLoop]
  | cons packet rest ih =>
    have same : ∀ e, (sr.log e).replayEvent interface intf ip mac =
        sr.replayEvent interface intf ip mac := fun e => rfl
    rw [Sr.replayLoop, Sr.srSendPacket_eq, ih, same]
    simp [Sr.log, Sr.replayEvent]

theorem Sr.replayLoop_eq {gotOnIntf : Option SrIf} {interface : IfName} {ip : UInt32} {mac : Mac}
    {packets : List SrPacket} {sr sr' : Sr}
    (h : sr.replayLoop gotOnIntf interface ip mac packets = some sr') :
    (packets = [] ∧ sr' = sr) ∨ ∃ intf, gotOnIntf = some intf ∧
      sr' = { sr with
        trace := sr.trace ++ packets.map (sr.replayEvent interface intf ip mac) } := by
  cases gotOnIntf with
  | none =>
    cases packets with
    | nil => exact .inl ⟨rfl, by simpa [Sr.replayLoop] using h.symm⟩
    | cons packet rest => simp [Sr.replayLoop] at h
  | some intf =>
    rw [Sr.replayLoop_some] at h
    exact .inr ⟨intf, rfl, (Option.some.inj h).symm⟩

/-! ## Moves -/

/-- The state after the broadcast of an ARP request for `req`. -/
def Sr.broadcast (env : Env) (sr : Sr) (req : ArpReq) (intf : SrIf) : Sr :=
  let sent := env.time (sr.ticks + 1)
  { sr with
    cache := sr.cache.updateReq req.addr fun r => { r with timesSent := r.timesSent + 1, sent }
    ticks := sr.ticks + 2
    trace := sr.trace ++
      [.sent (.arpRequest req.addr sent) intf.name (arpRequestFrame intf req.ip)] }

/-- The state after `req` is given up. -/
def Sr.giveUp (env : Env) (sr : Sr) (req : ArpReq) : Sr :=
  { sr with
    cache := sr.cache.srArpreqDestroy req.addr
    ticks := sr.ticks + 2
    trace := sr.trace ++ req.packets.map (sr.unreachableEvent env req.addr) ++
      [.gaveUp req.addr (env.time sr.ticks)] }

/-- The state after the packets of `req` are sent to its next hop. -/
def Sr.resolve (sr : Sr) (req : ArpReq) (interface : IfName) (intf : SrIf) (mac : Mac) : Sr :=
  { sr with
    cache := { sr.cache with requests := unlinkIp req.ip sr.cache.requests }.srArpreqDestroy
      req.addr
    trace := sr.trace ++ req.packets.map (sr.replayEvent interface intf req.ip mac) }

/-- The state after the entry of an ARP reply went into the table. -/
def Sr.learn (env : Env) (sr : Sr) (mac : Mac) (ip : UInt32) : Sr :=
  { sr with
    cache := { (sr.cache.srArpcacheInsert mac ip (env.time sr.ticks)).1 with
      requests := sr.cache.requests }
    ticks := sr.ticks + 1 }

/-- An event that concerns no request and no queued packet. -/
def Event.Quiet : Event → Prop
  | .sent cause _ _ | .refused cause _ _ =>
      cause = .forward ∨ cause = .arpReply ∨ cause = .icmp
  | .visited _ => True
  | _ => False

/-- A move of the router other than queueing a packet. -/
inductive Move (env : Env) : Sr → Sr → Prop where
  | quiet {sr : Sr} {e : Event} (h : e.Quiet) : Move env sr (sr.log e)
  /-- The table changes, time is read. -/
  | table (sr : Sr) (cache : ArpCache) (ticks : Nat)
      (queue : cache.requests = sr.cache.requests) : Move env sr { sr with cache, ticks }
  | broadcast {sr : Sr} {req : ArpReq} {packet : SrPacket} {intf : SrIf}
      (live : sr.cache.deref req.addr = some req)
      (due : 1 ≤ env.time sr.ticks - req.sent) (few : req.timesSent < 5)
      (first : req.packets.head? = some packet)
      (found : sr.srGetInterface packet.iface = some intf) :
      Move env sr (sr.broadcast env req intf)
  | giveUp {sr : Sr} {req : ArpReq} (live : sr.cache.deref req.addr = some req)
      (due : 1 ≤ env.time sr.ticks - req.sent) (many : 5 ≤ req.timesSent) :
      Move env sr (sr.giveUp env req)
  | resolve {sr : Sr} {req : ArpReq} {interface : IfName} {intf : SrIf}
      (live : sr.cache.findReq req.ip = some req)
      (found : sr.srGetInterface interface = some intf) (mac : Mac) :
      Move env sr (sr.resolve req interface intf mac)
  /-- The reply is for a request without packets. -/
  | unlink {sr : Sr} {req : ArpReq} (live : sr.cache.findReq req.ip = some req)
      (idle : req.packets = []) :
      Move env sr { sr with
        cache := { sr.cache with requests := unlinkIp req.ip sr.cache.requests }.srArpreqDestroy
          req.addr }

/-- A chain of moves. -/
abbrev Moves (env : Env) : Sr → Sr → Prop := ReflTransGen (Move env)

/-! ## What the functions do -/

theorem addr_of_deref {cache : ArpCache} {addr : Nat} {req : ArpReq}
    (live : cache.deref addr = some req) : req.addr = addr := by
  simpa using List.find?_some live

/-- What `process_arpreq` can do. -/
theorem processArpreq_cases {sr sr' : Sr} {request : Nat}
    (h : sr.processArpreq env request = some sr') :
    ∃ req, sr.cache.deref req.addr = some req ∧ req.addr = request ∧
      ((env.time sr.ticks - req.sent < 1 ∧ sr' = { sr with ticks := sr.ticks + 2 }) ∨
        (1 ≤ env.time sr.ticks - req.sent ∧ req.timesSent < 5 ∧
          ∃ packet intf, req.packets.head? = some packet ∧
            sr.srGetInterface packet.iface = some intf ∧ sr' = sr.broadcast env req intf) ∨
        (1 ≤ env.time sr.ticks - req.sent ∧ 5 ≤ req.timesSent ∧ sr' = sr.giveUp env req)) := by
  unfold Sr.processArpreq at h
  cases live : sr.cache.deref request with
  | none => simp [live] at h
  | some req =>
    obtain rfl := addr_of_deref live
    refine ⟨req, live, rfl, ?_⟩
    simp only [live] at h
    by_cases due : 1 ≤ env.time sr.ticks - req.sent
    · rw [if_pos due] at h
      by_cases few : req.timesSent < 5
      · rw [if_pos few] at h
        split at h
        · cases h
        · rename_i packet first
          split at h
          · cases h
          · rename_i intf found
            have found : sr.srGetInterface packet.iface = some intf := found
            have name := Sr.name_of_srGetInterface found
            rw [Sr.srSendPacket_sent env _ (name ▸ found)
              (by rw [length_arpRequestFrame]; decide) (arpRequestFrame_source intf req.ip)] at h
            exact .inr (.inl ⟨due, few, packet, intf, first, found, (Option.some.inj h).symm⟩)
      · rw [if_neg few, Sr.unreachableLoop_eq] at h
        exact .inr (.inr ⟨due, by omega, (Option.some.inj h).symm⟩)
    · rw [if_neg due] at h
      exact .inl ⟨by omega, (Option.some.inj h).symm⟩

theorem processArpreq_moves {sr sr' : Sr} {request : Nat}
    (h : sr.processArpreq env request = some sr') : Moves env sr sr' := by
  obtain ⟨req, live, -, ⟨-, rfl⟩ | ⟨due, few, packet, intf, first, found, rfl⟩ |
    ⟨due, many, rfl⟩⟩ := processArpreq_cases h
  · exact .single (.table sr sr.cache _ rfl)
  · exact .single (.broadcast live due few first found)
  · exact .single (.giveUp live due many)

theorem sweepLoop_moves {fuel : Nat} {request : Option Nat} {sr sr' : Sr}
    (h : sr.sweepLoop env fuel request = some sr') : Moves env sr sr' := by
  induction fuel generalizing request sr with
  | zero =>
    cases request with
    | none =>
      obtain rfl : sr = sr' := by simpa [Sr.sweepLoop] using h
      exact .refl
    | some r => simp [Sr.sweepLoop] at h
  | succ fuel ih =>
    cases request with
    | none =>
      obtain rfl : sr = sr' := by simpa [Sr.sweepLoop] using h
      exact .refl
    | some r =>
      rw [Sr.sweepLoop] at h
      split at h
      · cases h
      · rename_i sr₁ visited
        have visit : Move env sr (sr.log (.visited r)) := .quiet trivial
        exact (Relation.ReflTransGen.single visit).trans
          ((processArpreq_moves visited).trans (ih h))

theorem timeout_moves {sr sr' : Sr} (h : sr.srArpcacheTimeout env = some sr') :
    Moves env sr sr' := by
  unfold Sr.srArpcacheTimeout Sr.srArpcacheSweepreqs at h
  exact (Relation.ReflTransGen.single
    (.table sr (sr.cache.expire (env.time sr.ticks)) (sr.ticks + 1) rfl)).trans (sweepLoop_moves h)

theorem send_moves (sr : Sr) {cause : Cause} (buf : List UInt8) (iface : IfName)
    (h : cause = .forward ∨ cause = .arpReply ∨ cause = .icmp) :
    Moves env sr (sr.srSendPacket cause buf iface) := by
  rw [Sr.srSendPacket_eq]
  refine .single (.quiet ?_)
  unfold Sr.sendEvent
  split <;> exact h

theorem icmp_moves {sr sr' : Sr} {packet : List UInt8} {gotOnIntf : IfName} {type code : UInt8}
    {destIntf : Option SrIf}
    (h : sr.sendFabricatedIcmpPacket env .icmp packet gotOnIntf type code destIntf = some sr') :
    Moves env sr sr' := by
  unfold Sr.sendFabricatedIcmpPacket at h
  split at h
  · cases h
  · obtain rfl := Option.some.inj h
    exact send_moves sr _ _ (.inr (.inr rfl))

theorem processLocal_moves {sr sr' : Sr} {packet : List UInt8} {interface : IfName}
    {destIntf : SrIf} (h : sr.processLocal env packet interface destIntf = some sr') :
    Moves env sr sr' := by
  unfold Sr.processLocal at h
  split at h
  · split at h
    · obtain rfl := Option.some.inj h
      exact .refl
    · dsimp only at h
      split at h
      · obtain rfl := Option.some.inj h
        exact .refl
      · split at h
        · obtain rfl := Option.some.inj h
          exact .refl
        · exact icmp_moves h
  · exact icmp_moves h

theorem unlinkIp_of_findReq_none {cache : ArpCache} {ip : UInt32} (h : cache.findReq ip = none) :
    unlinkIp ip cache.requests = cache.requests := by
  unfold ArpCache.findReq at h
  rw [List.find?_eq_none] at h
  exact List.eraseP_of_forall_not h

/-- An ARP reply changes the table, and then it resolves the request for its
IP, if there is one. -/
theorem arpReply_cases {sr sr' : Sr} {packet : List UInt8} {interface : IfName} {mac : Mac}
    {ip : UInt32} (long : ¬ arpHdrSize + etherHdrSize > packet.length)
    (op : env.getU16 arOp packet = arpOpReply) (hmac : env.getMac arSha.off packet = mac)
    (hip : env.getU32 arSip packet = ip)
    (h : sr.processArpPacket env packet interface = some sr') :
    (sr.cache.findReq ip = none ∧ sr' = sr.learn env mac ip) ∨
      ∃ req, sr.cache.findReq ip = some req ∧ req.ip = ip ∧
        ((req.packets = [] ∧ sr' = { sr.learn env mac ip with
            cache := { (sr.learn env mac ip).cache with
              requests := unlinkIp ip sr.cache.requests }.srArpreqDestroy req.addr }) ∨
          ∃ intf, sr.srGetInterface interface = some intf ∧
            sr' = (sr.learn env mac ip).resolve req interface intf mac) := by
  rw [Sr.processArpPacket, if_neg long, op, if_neg (by decide), if_pos rfl, hmac, hip] at h
  dsimp only at h
  split at h
  · rename_i idle
    obtain rfl := Option.some.inj h
    have same : unlinkIp ip sr.cache.requests = sr.cache.requests :=
      unlinkIp_of_findReq_none idle
    refine .inl ⟨idle, ?_⟩
    rw [Sr.learn, ArpCache.srArpcacheInsert, same]
  · rename_i req live
    have hip : req.ip = ip := by simpa using List.find?_some live
    refine .inr ⟨req, live, hip, ?_⟩
    split at h
    · cases h
    · rename_i sr₁ replayed
      obtain rfl := Option.some.inj h
      rcases Sr.replayLoop_eq replayed with ⟨idle, rfl⟩ | ⟨intf, found, rfl⟩
      · exact .inl ⟨idle, rfl⟩
      · refine .inr ⟨intf, found, ?_⟩
        rw [Sr.resolve, hip]
        rfl

theorem arpReply_moves {sr sr' : Sr} {packet : List UInt8} {interface : IfName}
    (long : ¬ arpHdrSize + etherHdrSize > packet.length)
    (op : env.getU16 arOp packet = arpOpReply)
    (h : sr.processArpPacket env packet interface = some sr') : Moves env sr sr' := by
  set mac := env.getMac arSha.off packet with def_mac
  set ip := env.getU32 arSip packet with def_ip
  have learn : Move env sr (sr.learn env mac ip) := .table sr _ _ rfl
  refine .head learn ?_
  rcases arpReply_cases long op def_mac.symm def_ip.symm h with
    ⟨-, rfl⟩ | ⟨req, live, hip, ⟨idle, rfl⟩ | ⟨intf, found, rfl⟩⟩
  · exact .refl
  · rw [← hip] at live ⊢
    have live : (sr.learn env mac req.ip).cache.findReq req.ip = some req := live
    exact .single (.unlink live idle)
  · rw [← hip] at live ⊢
    have live : (sr.learn env mac req.ip).cache.findReq req.ip = some req := live
    have found : (sr.learn env mac req.ip).srGetInterface interface = some intf := found
    exact .single (.resolve live found mac)

theorem processArpPacket_moves {sr sr' : Sr} {packet : List UInt8} {interface : IfName}
    (h : sr.processArpPacket env packet interface = some sr') : Moves env sr sr' := by
  have whole := h
  unfold Sr.processArpPacket at h
  split at h
  · obtain rfl := Option.some.inj h
    exact .refl
  dsimp only at h
  split at h
  · split at h
    · cases h
    · split at h
      · obtain rfl := Option.some.inj h
        exact .refl
      · obtain rfl := Option.some.inj h
        exact send_moves sr _ _ (.inr (.inl rfl))
  split at h
  · rename_i op
    exact arpReply_moves ‹_› op whole
  · obtain rfl := Option.some.inj h
    exact .refl

theorem bestMatchLoop_mem {ip : UInt32} {best : Option SrRt} {table : List SrRt} {node : SrRt}
    (h : bestMatchLoop env ip best table = some node) : node ∈ table ∨ best = some node := by
  induction table generalizing best with
  | nil => exact .inr h
  | cons first rest ih =>
    rw [bestMatchLoop] at h
    rcases ih h with later | now
    · exact .inl (List.mem_cons_of_mem first later)
    · split at now
      · obtain rfl := Option.some.inj now
        exact .inl List.mem_cons_self
      · exact .inr now

@[simp] theorem length_recomputeIpSum (packet : List UInt8) :
    (recomputeIpSum env packet).length = packet.length := by
  simp only [recomputeIpSum, Field.length_set]

/-- A packet that is not queued makes moves only. -/
theorem processIpPacket_cases {sr sr' : Sr} {packet : List UInt8} {interface : IfName}
    (h : sr.processIpPacket env packet interface = some sr') :
    Moves env sr sr' ∨ ∃ (buf : List UInt8) (nextHop : SrRt), nextHop ∈ sr.routingTable ∧
      ipHdrSize + etherHdrSize ≤ buf.length ∧
      (sr.enqueue nextHop.gw buf nextHop.interface).1.processArpreq env
        (sr.enqueue nextHop.gw buf nextHop.interface).2 = some sr' := by
  unfold Sr.processIpPacket at h
  split at h
  · obtain rfl := Option.some.inj h
    exact .inl .refl
  rename_i long
  dsimp only at h
  split at h
  · obtain rfl := Option.some.inj h
    exact .inl .refl
  split at h
  · exact .inl (processLocal_moves h)
  split at h
  · exact .inl (icmp_moves h)
  split at h
  · exact .inl (icmp_moves h)
  · rename_i nextHop matched
    have route : nextHop ∈ sr.routingTable := (bestMatchLoop_mem matched).resolve_right nofun
    unfold Sr.forwardPacket at h
    dsimp only at h
    split at h
    · refine .inr ⟨_, nextHop, route, ?_, h⟩
      simp only [length_recomputeIpSum, Field.length_set]
      omega
    · split at h
      · cases h
      · obtain rfl := Option.some.inj h
        exact .inl (send_moves sr _ _ (.inl rfl))

/-! ## Runs -/

/-- An operation is a chain of moves, or it queues a packet and visits its
request. -/
theorem step_cases {sr sr' : Sr} {op : Op} (h : Step env sr op sr') :
    Moves env sr sr' ∨ ∃ (buf : List UInt8) (nextHop : SrRt), nextHop ∈ sr.routingTable ∧
      ipHdrSize + etherHdrSize ≤ buf.length ∧
      (sr.enqueue nextHop.gw buf nextHop.interface).1.processArpreq env
        (sr.enqueue nextHop.gw buf nextHop.interface).2 = some sr' := by
  cases op with
  | timeout => exact .inl (timeout_moves h)
  | frame packet interface =>
    unfold Step Sr.apply Sr.srHandlepacket at h
    dsimp only at h
    split at h
    · exact .inl (processArpPacket_moves h)
    · split at h
      · exact processIpPacket_cases h
      · obtain rfl := Option.some.inj h
        exact .inl .refl

/-- What every move and queueing a packet keep, an operation keeps. -/
theorem step_invariant (P : Sr → Prop) (move : ∀ {s t}, P s → Move env s t → P t)
    (enqueue : ∀ {s : Sr} {buf : List UInt8} {nextHop : SrRt}, P s → nextHop ∈ s.routingTable →
      ipHdrSize + etherHdrSize ≤ buf.length →
      P (s.enqueue nextHop.gw buf nextHop.interface).1)
    {sr sr' : Sr} {op : Op} (h : P sr) (hstep : Step env sr op sr') : P sr' := by
  rcases step_cases hstep with moves | ⟨buf, nextHop, route, long, visited⟩
  · exact chain_invariant P move moves h
  · exact chain_invariant P move (processArpreq_moves visited) (enqueue h route long)

/-- What every move and queueing a packet keep holds in every state of every
run. -/
theorem run_invariant (P : Sr → Prop) (move : ∀ {s t}, P s → Move env s t → P t)
    (enqueue : ∀ {s : Sr} {buf : List UInt8} {nextHop : SrRt}, P s → nextHop ∈ s.routingTable →
      ipHdrSize + etherHdrSize ≤ buf.length →
      P (s.enqueue nextHop.gw buf nextHop.interface).1)
    {sr sr' : Sr} {ops : List Op} (start : P sr) (h : Run (Step env) sr ops sr') : P sr' :=
  Run.invariant P start (step_invariant P move enqueue) h

/-- The state after a list of operations. -/
def Sr.applyAll (env : Env) (sr : Sr) (ops : List Op) : Option Sr := ops.foldlM (Sr.apply env) sr

theorem run_iff_applyAll {sr sr' : Sr} {ops : List Op} :
    Run (Step env) sr ops sr' ↔ sr.applyAll env ops = some sr' :=
  run_iff_foldlM

theorem run_applyAll {sr sr' : Sr} {ops : List Op} (h : sr.applyAll env ops = some sr') :
    Run (Step env) sr ops sr' :=
  run_iff_applyAll.mpr h

/-! ## What is added to the trace -/

/-- The router added events of one kind to the trace. -/
def Sr.Adds (P : Event → Prop) (sr sr' : Sr) : Prop :=
  ∃ es, sr'.trace = sr.trace ++ es ∧ ∀ e ∈ es, P e

section Adds

variable {P : Event → Prop} {s t u : Sr}

theorem Sr.Adds.of_eq (same : t.trace = s.trace) : Sr.Adds P s t :=
  ⟨[], by rw [same, List.append_nil], fun _ he => absurd he List.not_mem_nil⟩

theorem Sr.Adds.one {e : Event} (trace : t.trace = s.trace ++ [e]) (he : P e) : Sr.Adds P s t :=
  ⟨[e], trace, fun _ hx => List.mem_singleton.mp hx ▸ he⟩

theorem Sr.Adds.trans (h : Sr.Adds P s t) (h' : Sr.Adds P t u) : Sr.Adds P s u := by
  obtain ⟨es, trace, added⟩ := h
  obtain ⟨es', trace', added'⟩ := h'
  refine ⟨es ++ es', by rw [trace', trace, List.append_assoc], fun e he => ?_⟩
  exact (List.mem_append.mp he).elim (added e) (added' e)

/-- A sweep adds its visits and what the visited requests add. -/
theorem sweepLoop_adds (visit : ∀ r, P (.visited r))
    (arpreq : ∀ {s t : Sr} {request}, s.processArpreq env request = some t → Sr.Adds P s t)
    {fuel : Nat} {request : Option Nat} (h : s.sweepLoop env fuel request = some t) :
    Sr.Adds P s t := by
  induction fuel generalizing request s with
  | zero =>
    cases request with
    | none =>
      obtain rfl : s = t := by simpa [Sr.sweepLoop] using h
      exact .of_eq rfl
    | some r => simp [Sr.sweepLoop] at h
  | succ fuel ih =>
    cases request with
    | none =>
      obtain rfl : s = t := by simpa [Sr.sweepLoop] using h
      exact .of_eq rfl
    | some r =>
      rw [Sr.sweepLoop] at h
      split at h
      · cases h
      · rename_i visited
        have first : Sr.Adds P s (s.log (.visited r)) := .one rfl (visit r)
        exact first.trans ((arpreq visited).trans (ih h))

/-- Steps that add events of one kind make runs that do. -/
theorem run_adds (step : ∀ {s t : Sr} {op}, Step env s op t → Sr.Adds P s t) {ops : List Op}
    (h : Run (Step env) s ops t) : Sr.Adds P s t :=
  Run.invariant (Sr.Adds P s) (.of_eq rfl) (fun ht hstep => ht.trans (step hstep)) h

end Adds

/-! ## What never changes -/

theorem Move.config {sr sr' : Sr} (h : Move env sr sr') :
    sr'.ifList = sr.ifList ∧ sr'.routingTable = sr.routingTable := by
  cases h <;> exact ⟨rfl, rfl⟩

theorem Moves.config {sr sr' : Sr} (h : Moves env sr sr') :
    sr'.ifList = sr.ifList ∧ sr'.routingTable = sr.routingTable :=
  chain_invariant (fun t => t.ifList = sr.ifList ∧ t.routingTable = sr.routingTable)
    (fun ht hmove => ⟨hmove.config.1.trans ht.1, hmove.config.2.trans ht.2⟩) h ⟨rfl, rfl⟩

/-- Interfaces and routes never change. -/
theorem Step.config {sr sr' : Sr} {op : Op} (h : Step env sr op sr') :
    sr'.ifList = sr.ifList ∧ sr'.routingTable = sr.routingTable := by
  rcases step_cases h with moves | ⟨buf, nextHop, -, -, visited⟩
  · exact moves.config
  · exact (processArpreq_moves visited).config

/-- The trace only grows. -/
theorem Move.trace_prefix {sr sr' : Sr} (h : Move env sr sr') : sr.trace <+: sr'.trace := by
  cases h with
  | quiet => exact List.prefix_append _ _
  | table => exact List.prefix_refl _
  | broadcast => exact List.prefix_append _ _
  | giveUp =>
    rw [Sr.giveUp, List.append_assoc]
    exact List.prefix_append _ _
  | resolve => exact List.prefix_append _ _
  | unlink => exact List.prefix_refl _

theorem run_trace_prefix {sr sr' : Sr} {ops : List Op} (h : Run (Step env) sr ops sr') :
    sr.trace <+: sr'.trace :=
  run_invariant (fun t => sr.trace <+: t.trace) (fun ht move => ht.trans move.trace_prefix)
    (fun ht _ _ => ht.trans (List.prefix_append _ _)) (List.prefix_refl _) h

/-- Every route names an interface. -/
def Sr.Ported (sr : Sr) : Prop :=
  ∀ node ∈ sr.routingTable, ∃ intf, sr.srGetInterface node.interface = some intf

theorem Sr.Ported.of_config {sr sr' : Sr} (h : sr.Ported)
    (config : sr'.ifList = sr.ifList ∧ sr'.routingTable = sr.routingTable) : sr'.Ported := by
  obtain ⟨ifList, table⟩ := config
  unfold Sr.Ported Sr.srGetInterface at h ⊢
  rw [ifList, table]
  exact h

/-! ## A small router -/

/-- The MAC address 02:00:00:00:00:`n`. -/
def Mac.local (n : UInt8) : Mac := ⟨[2, 0, 0, 0, 0, n], rfl⟩

def eth0 : IfName := ⟨[101, 116, 104, 48], by decide, by decide⟩

def eth1 : IfName := ⟨[101, 116, 104, 49], by decide, by decide⟩

/-- A router with two interfaces, 10.0.0.1 and 10.0.1.1, and a default route to
10.0.1.2 through the second. -/
def twoPorts : Sr :=
  srInit
    [⟨eth0, .local 1, 0x0a000001⟩, ⟨eth1, .local 2, 0x0a000101⟩]
    [⟨0, 0x0a000102, 0, eth1⟩]

/-- Every reading of the clock is one second after the one before. -/
def Env.counting : Env where
  endian := .little
  time i := i + 1
  beyond _ := 0

/-- A UDP packet without data from 10.0.0.9 to 10.9.0.`n`. -/
def udpFrame (dhost : Mac) (n : UInt8) : List UInt8 :=
  recomputeIpSum .counting (dhost.bytes ++ (Mac.local 9).bytes ++ be16 ethertypeIp ++
    [0x45, 0, 0, 20, 0, 0, 0, 0, 64, 17, 0, 0] ++ be32 0x0a000009 ++ [10, 9, 0, n])

/-- An ARP reply from 10.0.1.2 that binds it to `mac`. -/
def replyFrame (mac : Mac) : List UInt8 :=
  (Mac.local 2).bytes ++ mac.bytes ++ be16 ethertypeArp ++ be16 arpHrdEthernet ++
    be16 ethertypeIp ++ [6, 4] ++ be16 arpOpReply ++ mac.bytes ++ be32 0x0a000102 ++
    (Mac.local 2).bytes ++ be32 0x0a000101

end NetLabs.Router
