/-
NetLabs.Router.Emission — where the router's frames go and whose MAC they
carry.

The name and the MAC of an outgoing interface come from a route, a queued
packet, the arrival interface or a search by MAC, and each is looked up
again by name. `sr_verify_routing_table` checks the routes, so what is stored
in the request queue later is checked too. `Emits` is what a function adds to
the trace under that: sent frames whose source is the MAC of the interface
they are sent on, and nothing refused. Each function emits, none meets a NULL
interface, and so does every run (`emissions_addressed`).
-/
import NetLabs.Router.LifeCycle

namespace NetLabs.Router

open NetLabs.Lib ArpCache

variable {env : Env}

/-! ## The check of the routing table -/

/-- `sr_verify_routing_table(sr)`: the number of routes whose interface does
not exist. -/
def Sr.srVerifyRoutingTable (sr : Sr) : Nat :=
  if sr.ifList = [] ∨ sr.routingTable = [] then 999
  else sr.routingTable.countP fun rtWalker =>
    !sr.ifList.any fun ifWalker => ifWalker.name = rtWalker.interface

/-- A table that passes names an interface in every route. -/
theorem ported_of_verified {sr : Sr} (verified : sr.srVerifyRoutingTable = 0) : sr.Ported := by
  intro node route
  rw [Sr.srVerifyRoutingTable] at verified
  split at verified
  · cases verified
  · have known := List.countP_eq_zero.mp verified node route
    obtain ⟨intf, hmem, hname⟩ : ∃ intf ∈ sr.ifList, intf.name = node.interface := by
      simpa using known
    exact hname ▸ sr.srGetInterface_of_mem hmem

/-! ## What is emitted -/

/-- A sent frame carries the MAC of the interface it is sent on. No frame is
refused. -/
def Sr.Addressed (env : Env) (sr : Sr) : Event → Prop
  | .sent _ iface frame =>
      ∃ intf, sr.srGetInterface iface = some intf ∧ env.get etherShost frame = intf.addr.bytes
  | .refused _ _ _ => False
  | _ => True

/-- The router did nothing but emit addressed frames, as far as the trace
tells, and has the interfaces and routes it had. -/
structure Emits (env : Env) (sr sr' : Sr) : Prop where
  ifList : sr'.ifList = sr.ifList
  routingTable : sr'.routingTable = sr.routingTable
  events : ∃ es, sr'.trace = sr.trace ++ es ∧ ∀ e ∈ es, sr.Addressed env e

theorem Emits.addressed_iff {sr sr' : Sr} (ifList : sr'.ifList = sr.ifList) (e : Event) :
    sr'.Addressed env e ↔ sr.Addressed env e := by
  cases e <;> simp only [Sr.Addressed, Sr.srGetInterface, ifList]

/-- The trace is as it was. -/
theorem Emits.silent {sr sr' : Sr} (ifList : sr'.ifList = sr.ifList)
    (routingTable : sr'.routingTable = sr.routingTable) (trace : sr'.trace = sr.trace) :
    Emits env sr sr' :=
  ⟨ifList, routingTable, [], by rw [trace, List.append_nil],
    fun _ he => absurd he List.not_mem_nil⟩

theorem Emits.refl (sr : Sr) : Emits env sr sr := .silent rfl rfl rfl

theorem Emits.trans {s t u : Sr} (h : Emits env s t) (h' : Emits env t u) : Emits env s u := by
  obtain ⟨ifList, table, es, trace, addressed⟩ := h
  obtain ⟨ifList', table', es', trace', addressed'⟩ := h'
  refine ⟨ifList'.trans ifList, table'.trans table, es ++ es', ?_, fun e he => ?_⟩
  · rw [trace', trace, List.append_assoc]
  · rcases List.mem_append.mp he with he | he
    · exact addressed e he
    · exact (Emits.addressed_iff ifList e).mp (addressed' e he)

theorem Emits.ported {s t : Sr} (h : Emits env s t) (ports : s.Ported) : t.Ported :=
  ports.of_config ⟨h.ifList, h.routingTable⟩

/-- One event. -/
theorem Emits.log {sr : Sr} {e : Event} (h : sr.Addressed env e) : Emits env sr (sr.log e) :=
  ⟨rfl, rfl, [e], rfl, fun _ he => List.mem_singleton.mp he ▸ h⟩

/-- A frame that carries the MAC of its interface is emitted. -/
theorem srSendPacket_emits {sr : Sr} {buf : List UInt8} {iface : IfName} {intf : SrIf}
    (cause : Cause) (found : sr.srGetInterface iface = some intf)
    (long : etherHdrSize ≤ buf.length) (source : env.get etherShost buf = intf.addr.bytes) :
    Emits env sr (sr.srSendPacket cause buf iface) := by
  rw [Sr.srSendPacket_sent env cause found long source]
  exact .log ⟨intf, found, source⟩

/-! ## ICMP messages -/

/-- An ICMP message has all its headers, if its packet has an IP header. -/
theorem length_fabricatedIcmp (packet : List UInt8) (type code : UInt8) (intf : SrIf)
    (destIntf : Option SrIf) (long : ipHdrSize + etherHdrSize ≤ packet.length) :
    ipHdrSize + etherHdrSize ≤ (fabricatedIcmp env packet type code intf destIntf).length := by
  by_cases echo : type = 0
  · have fits : icmpHdr.off + (slice (List.replicate packet.length (0 : UInt8)) icmpHdr.off
        (packet.length - etherHdrSize - ipHdrSize)).length ≤
        (List.replicate packet.length (0 : UInt8)).length := by
      rw [List.length_replicate]
      simp only [slice, List.length_take, List.length_drop, List.length_replicate, etherHdrSize,
        ipHdrSize] at long ⊢
      omega
    simp only [fabricatedIcmp, echo, if_true, Field.length_set, length_put fits,
      List.length_replicate]
    exact long
  · simp only [fabricatedIcmp, echo, if_false, Field.length_set, List.length_replicate]
    decide

/-- An ICMP message carries the MAC of the interface it is built for. -/
theorem fabricatedIcmp_source (packet : List UInt8) (type code : UInt8) (intf : SrIf)
    (destIntf : Option SrIf) (long : ipHdrSize + etherHdrSize ≤ packet.length) :
    env.get etherShost (fabricatedIcmp env packet type code intf destIntf) = intf.addr.bytes := by
  have whole : ipHdrSize + etherHdrSize ≤
      (fabricatedIcmp env packet type code intf destIntf).length :=
    length_fabricatedIcmp packet type code intf destIntf long
  unfold fabricatedIcmp at whole ⊢
  dsimp only at whole ⊢
  rw [Field.length_set, Field.length_set] at whole
  rw [Env.get_set_apart (by decide), Env.get_set ⟨intf.addr.size, le_trans (by decide) whole⟩]

/-- `send_fabricated_icmp_packet` on an interface there is. -/
theorem icmp_emits {sr : Sr} {packet : List UInt8} {gotOnIntf : IfName} {out : SrIf}
    (found : sr.srGetInterface gotOnIntf = some out)
    (long : ipHdrSize + etherHdrSize ≤ packet.length) (cause : Cause) (type code : UInt8)
    (destIntf : Option SrIf) :
    ∃ sr', sr.sendFabricatedIcmpPacket env cause packet gotOnIntf type code destIntf = some sr' ∧
      Emits env sr sr' := by
  refine ⟨_, by rw [Sr.sendFabricatedIcmpPacket, found], srSendPacket_emits cause found ?_ ?_⟩
  · exact le_trans (by decide) (length_fabricatedIcmp packet type code out destIntf long)
  · exact fabricatedIcmp_source packet type code out destIntf long

/-! ## ARP requests -/

theorem unreachableEvent_addressed (sr : Sr) (request : Nat) (packet : SrPacket) :
    sr.Addressed env (sr.unreachableEvent env request packet) := by
  rw [Sr.unreachableEvent]
  split
  · trivial
  · split
    · trivial
    · rename_i out found
      exact ⟨out, found, hostUnreachable_source packet.buf out⟩

theorem processArpreq_emits {sr sr' : Sr} {request : Nat}
    (h : sr.processArpreq env request = some sr') : Emits env sr sr' := by
  obtain ⟨req, -, -, ⟨-, rfl⟩ | ⟨-, -, packet, intf, -, found, rfl⟩ | ⟨-, -, rfl⟩⟩ :=
    processArpreq_cases h
  · exact .silent rfl rfl rfl
  · -- the request goes out on the interface of the first packet
    have name := Sr.name_of_srGetInterface found
    refine ⟨rfl, rfl, _, rfl, fun e he => ?_⟩
    obtain rfl := List.mem_singleton.mp he
    exact ⟨intf, name ▸ found, arpRequestFrame_source intf req.ip⟩
  · refine ⟨rfl, rfl, _, List.append_assoc _ _ _, fun e he => ?_⟩
    rcases List.mem_append.mp he with he | he
    · obtain ⟨packet, -, rfl⟩ := List.mem_map.mp he
      exact unreachableEvent_addressed sr req.addr packet
    · obtain rfl := List.mem_singleton.mp he
      trivial

theorem sweepLoop_emits {fuel : Nat} {request : Option Nat} {sr sr' : Sr}
    (h : sr.sweepLoop env fuel request = some sr') : Emits env sr sr' := by
  induction fuel generalizing request sr with
  | zero =>
    cases request with
    | none =>
      obtain rfl : sr = sr' := by simpa [Sr.sweepLoop] using h
      exact .refl sr
    | some r => simp [Sr.sweepLoop] at h
  | succ fuel ih =>
    cases request with
    | none =>
      obtain rfl : sr = sr' := by simpa [Sr.sweepLoop] using h
      exact .refl sr
    | some r =>
      rw [Sr.sweepLoop] at h
      split at h
      · cases h
      · rename_i visited
        have visit : Emits env sr (sr.log (.visited r)) := .log trivial
        exact visit.trans ((processArpreq_emits visited).trans (ih h))

/-- A sweep ends, whatever waits. -/
theorem timeout_emits {sr : Sr} (inv : QueueInv sr) (ports : sr.Ported) :
    ∃ sr', sr.srArpcacheTimeout env = some sr' ∧ Emits env sr sr' := by
  set start : Sr := { sr with
    cache := sr.cache.expire (env.time sr.ticks), ticks := sr.ticks + 1 } with hstart
  have inv' : QueueInv start := inv.sublist (.refl _) rfl rfl (List.prefix_refl _)
  have ports' : start.Ported := ports
  obtain ⟨sr', swept⟩ : ∃ sr', start.srArpcacheSweepreqs env = some sr' :=
    sweepLoop_total inv' ports' (List.nil_append start.cache.requests).symm le_rfl
  have begun : Emits env sr start := .silent rfl rfl rfl
  exact ⟨sr', swept, begun.trans (sweepLoop_emits swept)⟩

/-! ## IP packets -/

theorem processLocal_emits {sr : Sr} {packet : List UInt8} {interface : IfName} {out : SrIf}
    (found : sr.srGetInterface interface = some out)
    (long : ipHdrSize + etherHdrSize ≤ packet.length) (destIntf : SrIf) :
    ∃ sr', sr.processLocal env packet interface destIntf = some sr' ∧ Emits env sr sr' := by
  rw [Sr.processLocal]
  split
  · split
    · exact ⟨sr, rfl, .refl sr⟩
    · dsimp only
      split
      · exact ⟨sr, rfl, .refl sr⟩
      · split
        · exact ⟨sr, rfl, .refl sr⟩
        · exact icmp_emits found (by simpa only [Field.length_set] using long) _ _ _ _
  · exact icmp_emits found long _ _ _ _

/-- The request a packet was queued for is on the queue. -/
theorem enqueue_live (sr : Sr) (ip : UInt32) {buf : List UInt8} (iface : IfName)
    (nonempty : buf.length ≠ 0) :
    ∃ req ∈ (sr.enqueue ip buf iface).1.cache.requests, req.addr = (sr.enqueue ip buf iface).2 := by
  rcases enqueue_cases sr ip iface nonempty with ⟨-, eq⟩ | ⟨before, req, after, -, -, eq⟩
  · rw [eq]
    exact ⟨_, List.mem_cons_self, rfl⟩
  · rw [eq]
    exact ⟨push req _, List.mem_append_right _ List.mem_cons_self, rfl⟩

theorem enqueue_emits (env : Env) (sr : Sr) (ip : UInt32) (buf : List UInt8) (iface : IfName) :
    Emits env sr (sr.enqueue ip buf iface).1 := by
  refine ⟨rfl, rfl, _, trace_enqueue sr ip buf iface, fun e he => ?_⟩
  obtain rfl := List.mem_singleton.mp he
  trivial

theorem forwardPacket_emits {sr : Sr} {packet : List UInt8} {nextHop : SrRt} (inv : QueueInv sr)
    (ports : sr.Ported) (route : nextHop ∈ sr.routingTable)
    (long : ipHdrSize + etherHdrSize ≤ packet.length) :
    ∃ sr', sr.forwardPacket env packet nextHop = some sr' ∧ Emits env sr sr' := by
  rw [Sr.forwardPacket]
  dsimp only
  have long' : ipHdrSize + etherHdrSize ≤
      (recomputeIpSum env (ipTtl.set [env.getU8 ipTtl packet - 1] packet)).length := by
    rwa [length_recomputeIpSum, Field.length_set]
  split
  · obtain ⟨req, live, addr⟩ :=
      enqueue_live sr nextHop.gw nextHop.interface (nonempty_of_long long')
    have queued := enqueue_emits env sr nextHop.gw
      (recomputeIpSum env (ipTtl.set [env.getU8 ipTtl packet - 1] packet)) nextHop.interface
    rw [← addr]
    obtain ⟨sr', visited⟩ :=
      processArpreq_total (queueInv_enqueue inv route long') (queued.ported ports) live
    exact ⟨sr', visited, queued.trans (processArpreq_emits visited)⟩
  · obtain ⟨intf, found⟩ := ports nextHop route
    have name := Sr.name_of_srGetInterface found
    rw [found]
    refine ⟨_, rfl, srSendPacket_emits _ (name ▸ found) ?_ (Env.get_set ⟨intf.addr.size, ?_⟩)⟩
    · rw [Field.length_set, Field.length_set]
      exact le_trans (by decide) long'
    · rw [Field.length_set]
      exact le_trans (by decide) long'

theorem processIpPacket_emits {sr : Sr} {packet : List UInt8} {interface : IfName} {out : SrIf}
    (inv : QueueInv sr) (ports : sr.Ported) (found : sr.srGetInterface interface = some out) :
    ∃ sr', sr.processIpPacket env packet interface = some sr' ∧ Emits env sr sr' := by
  rw [Sr.processIpPacket]
  split
  · exact ⟨sr, rfl, .refl sr⟩
  rename_i short
  have long : ipHdrSize + etherHdrSize ≤ (recomputeIpSum env packet).length := by
    rw [length_recomputeIpSum]
    omega
  dsimp only
  split
  · exact ⟨sr, rfl, .refl sr⟩
  split
  · exact processLocal_emits found long _
  split
  · exact icmp_emits found long _ _ _ _
  split
  · exact icmp_emits found long _ _ _ _
  · rename_i nextHop matched
    have route : nextHop ∈ sr.routingTable := (bestMatchLoop_mem matched).resolve_right nofun
    exact forwardPacket_emits inv ports route long

/-! ## ARP packets -/

theorem arpReplyFrame_source {packet : List UInt8} (intf : SrIf)
    (long : arpHdrSize + etherHdrSize ≤ packet.length) :
    env.get etherShost (arpReplyFrame env packet intf) = intf.addr.bytes := by
  have fits : etherShost.off + etherShost.size ≤ packet.length := le_trans (by decide) long
  unfold arpReplyFrame
  dsimp only
  -- every field written after the source stands behind it
  iterate 7 rw [Env.get_set_apart (by left; decide)]
  rw [Env.get_set ⟨intf.addr.size, by rwa [Field.length_set, List.length_replicate]⟩]

/-- An ARP reply on an interface there is finds it for every queued packet. -/
theorem arpReply_emits {sr : Sr} {packet : List UInt8} {interface : IfName} {out : SrIf}
    (inv : QueueInv sr) (found : sr.srGetInterface interface = some out)
    (long : ¬ arpHdrSize + etherHdrSize > packet.length)
    (op : env.getU16 arOp packet = arpOpReply) :
    ∃ sr', sr.processArpPacket env packet interface = some sr' ∧ Emits env sr sr' := by
  obtain ⟨sr', replied⟩ : ∃ sr', sr.processArpPacket env packet interface = some sr' := by
    rw [Sr.processArpPacket, if_neg long, op, if_neg (by decide), if_pos rfl, found]
    dsimp only
    split
    · exact ⟨_, rfl⟩
    · rw [Sr.replayLoop_some]
      exact ⟨_, rfl⟩
  refine ⟨sr', replied, ?_⟩
  rcases arpReply_cases long op rfl rfl replied with
    ⟨-, rfl⟩ | ⟨req, live, -, ⟨-, rfl⟩ | ⟨intf, found', rfl⟩⟩
  · exact .silent rfl rfl rfl
  · exact .silent rfl rfl rfl
  · refine ⟨rfl, rfl, _, rfl, fun e he => ?_⟩
    obtain ⟨p, hp, rfl⟩ := List.mem_map.mp he
    have waits : p ∈ sr.waiting := Sr.mem_waiting (List.mem_of_find?_eq_some live) hp
    have whole := inv.long p waits
    have known : (sr.learn env (env.getMac arSha.off packet)
        (env.getU32 arSip packet)).srGetInterface interface = some intf := found'
    rw [replayEvent_eq env known whole]
    exact ⟨intf, found', replayFrame_source _ intf (le_trans (by decide) whole)⟩

theorem processArpPacket_emits {sr : Sr} {packet : List UInt8} {interface : IfName} {out : SrIf}
    (inv : QueueInv sr) (found : sr.srGetInterface interface = some out) :
    ∃ sr', sr.processArpPacket env packet interface = some sr' ∧ Emits env sr sr' := by
  by_cases long : arpHdrSize + etherHdrSize > packet.length
  · rw [Sr.processArpPacket, if_pos long]
    exact ⟨sr, rfl, .refl sr⟩
  by_cases request : env.getU16 arOp packet = arpOpRequest
  · have whole : arpHdrSize + etherHdrSize ≤ packet.length := by omega
    rw [Sr.processArpPacket, if_neg long, found]
    dsimp only
    rw [if_pos request]
    split
    · exact ⟨sr, rfl, .refl sr⟩
    · refine ⟨_, rfl, srSendPacket_emits _ found ?_ (arpReplyFrame_source out whole)⟩
      simp only [arpReplyFrame, Field.length_set, List.length_replicate]
      exact le_trans (by decide) whole
  by_cases reply : env.getU16 arOp packet = arpOpReply
  · exact arpReply_emits inv found long reply
  · rw [Sr.processArpPacket, if_neg long]
    dsimp only
    rw [if_neg request, if_neg reply]
    exact ⟨sr, rfl, .refl sr⟩

/-! ## Runs -/

/-- What holds between operations. -/
structure EmissionInv (env : Env) (sr : Sr) : Prop where
  queue : QueueInv sr
  ports : sr.Ported
  addressed : ∀ e ∈ sr.trace, sr.Addressed env e

/-- A frame arrives on an interface of the list. -/
def Op.OnPort (ifList : List SrIf) : Op → Prop
  | .frame _ interface => ∃ intf ∈ ifList, intf.name = interface
  | .timeout => True

theorem emissionInv_apply {sr : Sr} {op : Op} (h : EmissionInv env sr)
    (arrives : op.OnPort sr.ifList) :
    ∃ sr', sr.apply env op = some sr' ∧ EmissionInv env sr' ∧ sr'.ifList = sr.ifList := by
  have emits : ∃ sr', sr.apply env op = some sr' ∧ Emits env sr sr' := by
    cases op with
    | frame packet interface =>
      obtain ⟨intf, hmem, rfl⟩ := arrives
      obtain ⟨out, found⟩ := sr.srGetInterface_of_mem hmem
      rw [Sr.apply, Sr.srHandlepacket]
      split
      · exact processArpPacket_emits h.queue found
      · split
        · exact processIpPacket_emits h.queue h.ports found
        · exact ⟨sr, rfl, .refl sr⟩
    | timeout => exact timeout_emits h.queue h.ports
  obtain ⟨sr', hstep, hemits⟩ := emits
  have queue : QueueInv sr' := queueInv_run h.queue (.single hstep)
  refine ⟨sr', hstep, ⟨queue, hemits.ported h.ports, fun e he => ?_⟩, hemits.ifList⟩
  obtain ⟨es, trace, addressed⟩ := hemits.events
  rw [Emits.addressed_iff hemits.ifList]
  rw [trace] at he
  exact (List.mem_append.mp he).elim (h.addressed e) (addressed e)

/-- **Every emission is well addressed.** With a verified routing table, frames
that arrive on interfaces of the list and sweeps in any order meet no NULL
interface. `sr_send_packet` refuses no frame, and every frame it sends has the
source MAC of the interface it goes out on. -/
theorem emissions_addressed {ifList : List SrIf} {routingTable : List SrRt} {ops : List Op}
    (verified : (srInit ifList routingTable).srVerifyRoutingTable = 0)
    (arrivals : ∀ op ∈ ops, op.OnPort ifList) :
    ∃ sr, (srInit ifList routingTable).applyAll env ops = some sr ∧
      (∀ cause iface frame, .refused cause iface frame ∉ sr.trace) ∧
      ∀ cause iface frame, .sent cause iface frame ∈ sr.trace →
        ∃ intf, sr.srGetInterface iface = some intf ∧
          env.get etherShost frame = intf.addr.bytes := by
  obtain ⟨sr, run, ⟨inv, -⟩⟩ := foldlM_total
    (fun sr => EmissionInv env sr ∧ sr.ifList = ifList) (Op.OnPort ifList)
    (fun {sr op} h arrives => by
      obtain ⟨sr', hstep, inv, same⟩ := emissionInv_apply h.1 (h.2 ▸ arrives)
      exact ⟨sr', hstep, inv, same.trans h.2⟩)
    ⟨⟨queueInv_init ifList routingTable, ported_of_verified verified,
      fun _ he => absurd he List.not_mem_nil⟩, rfl⟩ arrivals
  refine ⟨sr, run, ?_, ?_⟩
  · intro cause iface frame he
    exact inv.addressed _ he
  · intro cause iface frame he
    exact inv.addressed _ he

/-- A packet waits for its next hop, and an ARP reply resolves it. -/
theorem emissions_addressed_resolved :
    ∃ sr, twoPorts.applyAll .counting
        [.frame (udpFrame (.local 1) 1) eth0, .timeout, .frame (replyFrame (.local 7)) eth1] =
          some sr ∧
      (∀ cause iface frame, .refused cause iface frame ∉ sr.trace) ∧
      ∀ cause iface frame, .sent cause iface frame ∈ sr.trace →
        ∃ intf, sr.srGetInterface iface = some intf ∧
          Env.counting.get etherShost frame = intf.addr.bytes :=
  emissions_addressed (by decide)
    (by
      intro op hop
      rcases List.mem_cons.mp hop with rfl | hop
      · exact ⟨_, List.mem_cons_self, rfl⟩
      rcases List.mem_cons.mp hop with rfl | hop
      · trivial
      · obtain rfl := List.mem_singleton.mp hop
        exact ⟨_, List.mem_cons_of_mem _ List.mem_cons_self, rfl⟩)

end NetLabs.Router
