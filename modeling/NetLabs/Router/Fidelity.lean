/-
NetLabs.Router.Fidelity — what forwarding changes of a frame, and what the
other exits leave of it.

`IsForwarded` is the frame a router may put in place of the one it received:
other MAC addresses, a TTL lower by one, and a checksum that makes the header
valid. What is sent at once is compared with the packet through `leaveBy`. What
waits is found again by its address: no two packets that were queued have the
same (`queued_unique`), and a packet leaves the queue as it went in.
-/
import NetLabs.Router.Conservation
import NetLabs.Router.Exits

namespace NetLabs.Router

open NetLabs.Lib Relation ArpCache

variable {env : Env}

/-! ## A forwarded frame -/

/-- `frame` is `packet` as it is forwarded. -/
structure IsForwarded (env : Env) (packet frame : List UInt8) : Prop where
  length : frame.length = packet.length
  same : ∀ i, macsSize ≤ i → i ≠ ipTtl.off → i ≠ ipSum.off → i ≠ ipSum.off + 1 →
    frame[i]? = packet[i]?
  ttl : (env.getU8 ipTtl frame).toNat + 1 = (env.getU8 ipTtl packet).toNat
  alive : 1 ≤ env.getU8 ipTtl frame
  sum : headerSum env frame = 0xffff

/-- A byte outside a field does not change with it. -/
theorem Field.getElem?_set {f : Field} {bs buf : List UInt8} {i : Nat}
    (apart : i < f.off ∨ f.off + bs.length ≤ i) : (f.set bs buf)[i]? = buf[i]? := by
  unfold Field.set
  split
  · rename_i fits
    exact getElem?_put apart fits
  · rfl

theorem getElem?_rewritten {packet : List UInt8} {i : Nat} (ttl : i ≠ ipTtl.off)
    (first : i ≠ ipSum.off) (second : i ≠ ipSum.off + 1) :
    (rewritten env packet)[i]? = packet[i]? := by
  have ttl : i ≠ 22 := ttl
  have first : i ≠ 24 := first
  have second : i ≠ 25 := second
  have apartSum : i < 24 ∨ 24 + 2 ≤ i := by omega
  have apartTtl : i < 22 ∨ 22 + 1 ≤ i := by omega
  rw [rewritten, withTtl, recomputeIpSum_eq,
    Field.getElem?_set (by rw [length_memU16]; exact apartSum), Field.getElem?_set apartTtl]

/-- Behind the MAC addresses an outgoing frame is the frame it is made of. -/
theorem sameAfterMacs_outFrame {frame : List UInt8} (mac : Mac) (intf : SrIf)
    (long : ipHdrSize + etherHdrSize ≤ frame.length) :
    SameAfterMacs (outFrame mac intf frame) frame := by
  have long' : etherHdrSize ≤ frame.length := le_trans (by decide) long
  refine sameAfterMacs_of_eq (by rwa [length_outFrame mac intf long']) long ?_
  have macs : (mac.bytes ++ intf.addr.bytes).length = macsSize := by
    rw [List.length_append, Mac.length_bytes, Mac.length_bytes]
    rfl
  rw [afterMacs, outFrame, List.drop_left' macs]

theorem SameAfterMacs.getElem? {p q : List UInt8} (h : SameAfterMacs p q) {i : Nat}
    (behind : macsSize ≤ i) : p[i]? = q[i]? := by
  have same := congrArg (fun l => l[i - macsSize]?) h.same
  simpa only [afterMacs, List.getElem?_drop, Nat.add_sub_cancel' behind] using same

theorem getU8_of_get {f : Field} {p q : List UInt8} (size : f.size = 1)
    (same : env.get f p = env.get f q) : env.getU8 f p = env.getU8 f q := by
  rw [Env.get_eq_getU8 p size, Env.get_eq_getU8 q size] at same
  exact List.singleton_inj.mp same

theorem getU8_ipTtl_rewritten {packet : List UInt8}
    (long : ipHdrSize + etherHdrSize ≤ packet.length) :
    env.getU8 ipTtl (rewritten env packet) = env.getU8 ipTtl packet - 1 := by
  have held : env.get ipTtl (rewritten env packet) = [env.getU8 ipTtl packet - 1] := by
    rw [rewritten, withTtl, recomputeIpSum_eq, Env.get_set_apart (.inl (by decide)),
      Env.get_set ⟨rfl, le_trans (by decide) long⟩]
  rw [Env.get_eq_getU8 _ rfl] at held
  exact List.singleton_inj.mp held

/-- A packet that may live on is forwarded well, whatever MAC addresses it
gets. -/
theorem isForwarded_outFrame {packet : List UInt8} (mac : Mac) (intf : SrIf)
    (long : ipHdrSize + etherHdrSize ≤ packet.length) (ttl : ¬ 1 ≥ env.getU8 ipTtl packet) :
    IsForwarded env packet (outFrame mac intf (rewritten env packet)) := by
  have long' : ipHdrSize + etherHdrSize ≤ (rewritten env packet).length := by
    rwa [length_rewritten]
  have tail := sameAfterMacs_outFrame mac intf long'
  have lowered : env.getU8 ipTtl (outFrame mac intf (rewritten env packet)) =
      env.getU8 ipTtl packet - 1 := by
    have same : env.get ipTtl (outFrame mac intf (rewritten env packet)) =
        env.get ipTtl (rewritten env packet) := tail.get (by decide)
    rw [getU8_of_get rfl same, getU8_ipTtl_rewritten long]
  have above : 1 < (env.getU8 ipTtl packet).toNat := by
    rw [ge_iff_le, UInt8.le_iff_toNat_le] at ttl
    exact Nat.lt_of_not_le ttl
  have value : (env.getU8 ipTtl packet - 1).toNat = (env.getU8 ipTtl packet).toNat - 1 :=
    UInt8.toNat_sub_of_le _ _ (UInt8.le_iff_toNat_le.mpr (Nat.le_of_lt above))
  constructor
  · exact tail.length.trans (length_rewritten packet)
  · intro i behind ttl first second
    rw [tail.getElem? behind, getElem?_rewritten ttl first second]
  · rw [lowered, value]
    omega
  · rw [lowered, UInt8.le_iff_toNat_le, value]
    show 1 ≤ _
    omega
  · rw [headerSum, tail.get (by decide), ← headerSum, rewritten, withTtl]
    exact headerSum_recompute (by rwa [Field.length_set])

/-! ## What a packet adds to the trace -/

/-- What the router did since it was in `start`. -/
def Sr.since (sr start : Sr) : List Event := sr.trace.drop start.trace.length

theorem since_eq {start sr : Sr} {es : List Event} (trace : sr.trace = start.trace ++ es) :
    sr.since start = es := by
  rw [Sr.since, trace, List.drop_left]

/-- An event that neither forwards nor queues a packet. -/
def Event.Aside (e : Event) : Prop :=
  (∀ iface frame, e ≠ .sent .forward iface frame) ∧ ∀ ip packet, e ≠ .queued ip packet

theorem sendEvent_aside (sr : Sr) {cause : Cause} (buf : List UInt8) (iface : IfName)
    (other : cause ≠ .forward) : (sr.sendEvent cause buf iface).Aside := by
  unfold Sr.sendEvent
  split
  · exact ⟨nofun, nofun⟩
  · refine ⟨fun _ _ same => ?_, nofun⟩
    injection same with cause
    exact other cause

theorem processArpreq_aside {sr sr' : Sr} {request : Nat}
    (h : sr.processArpreq env request = some sr') :
    ∃ es, sr'.trace = sr.trace ++ es ∧ ∀ e ∈ es, e.Aside := by
  obtain ⟨req, -, -, ⟨-, rfl⟩ | ⟨-, -, packet, intf, -, -, rfl⟩ | ⟨-, -, rfl⟩⟩ :=
    processArpreq_cases h
  · exact ⟨[], (List.append_nil _).symm, fun _ he => absurd he List.not_mem_nil⟩
  · refine ⟨_, rfl, fun e he => ?_⟩
    obtain rfl := List.mem_singleton.mp he
    exact ⟨nofun, nofun⟩
  · refine ⟨_, List.append_assoc _ _ _, fun e he => ?_⟩
    rcases List.mem_append.mp he with he | he
    · obtain ⟨packet, -, rfl⟩ := List.mem_map.mp he
      rcases unreachableEvent_cases env sr req.addr packet with eq | ⟨iface, frame, eq⟩
      · rw [eq]
        exact ⟨nofun, nofun⟩
      · rw [eq]
        exact ⟨nofun, nofun⟩
    · obtain rfl := List.mem_singleton.mp he
      exact ⟨nofun, nofun⟩

theorem icmp_aside {sr sr' : Sr} {packet : List UInt8} {gotOnIntf : IfName} {type code : UInt8}
    {destIntf : Option SrIf}
    (h : sr.sendFabricatedIcmpPacket env .icmp packet gotOnIntf type code destIntf = some sr') :
    ∀ e ∈ sr'.since sr, e.Aside := by
  unfold Sr.sendFabricatedIcmpPacket at h
  split at h
  · cases h
  · obtain rfl := Option.some.inj h
    intro e he
    rw [Sr.srSendPacket_eq, since_eq rfl] at he
    obtain rfl := List.mem_singleton.mp he
    exact sendEvent_aside sr _ _ nofun

theorem answer_aside {sr sr' : Sr} {packet : List UInt8} {interface : IfName}
    {message : Option (UInt8 × UInt8 × Option SrIf)}
    (h : sr.answer env packet interface message = some sr') : ∀ e ∈ sr'.since sr, e.Aside := by
  cases message with
  | none =>
    obtain rfl := Option.some.inj h
    intro e he
    rw [since_eq (List.append_nil _).symm] at he
    exact absurd he List.not_mem_nil
  | some message => exact icmp_aside h

theorem leaveBy_queued {sr sr' : Sr} {packet buf : List UInt8} {interface : IfName}
    {nextHop : SrRt} (h : sr.leaveBy env packet interface (.queued nextHop) = some (sr', buf)) :
    ∃ es, sr'.since sr = .queued nextHop.gw
      (sr.newPacket (rewritten env packet) nextHop.interface) :: es ∧ ∀ e ∈ es, e.Aside := by
  obtain ⟨sr₁, visited, eq⟩ := Option.map_eq_some_iff.mp h
  obtain ⟨rfl, rfl⟩ := Prod.mk.inj eq
  obtain ⟨es, trace, aside⟩ := processArpreq_aside visited
  rw [trace_enqueue, List.append_assoc] at trace
  exact ⟨es, since_eq trace, aside⟩

theorem leaveBy_forwarded {sr sr' : Sr} {packet buf : List UInt8} {interface : IfName}
    {nextHop : SrRt} {mac : Mac} (long : ipHdrSize + etherHdrSize ≤ packet.length)
    (h : sr.leaveBy env packet interface (.forwarded nextHop mac) = some (sr', buf)) :
    ∃ intf, sr'.since sr =
      [.sent .forward intf.name (outFrame mac intf (rewritten env packet))] := by
  have long' : etherHdrSize ≤ (rewritten env packet).length := by
    rw [length_rewritten]
    exact le_trans (by decide) long
  obtain ⟨intf, found, eq⟩ := Option.map_eq_some_iff.mp h
  obtain ⟨rfl, rfl⟩ := Prod.mk.inj eq
  have name := Sr.name_of_srGetInterface found
  have source : env.get etherShost (outFrame mac intf (rewritten env packet)) =
      intf.addr.bytes := by
    rw [← replayFrame_eq mac intf long']
    exact replayFrame_source mac intf long'
  refine ⟨intf, since_eq ?_⟩
  rw [sr.srSendPacket_sent env .forward (name ▸ found)
    (by rwa [length_outFrame mac intf long']) source]
  rfl

/-! ## Queued packets -/

theorem Move.queuedPackets {s t : Sr} (h : Move env s t) : t.queuedPackets = s.queuedPackets := by
  have none_new : ∀ {es : List Event}, t.trace = s.trace ++ es →
      es.filterMap Event.queued? = [] → t.queuedPackets = s.queuedPackets := by
    intro es trace none
    rw [Sr.queuedPackets, Sr.queuedPackets, trace, List.filterMap_append, none, List.append_nil]
  cases h with
  | @quiet e quiet =>
    have settles : e.queued? = none := (quiet.settles_none env).2.1
    exact none_new rfl (List.filterMap_cons_none settles)
  | table => rfl
  | broadcast => exact none_new rfl rfl
  | @giveUp req live due many =>
    refine none_new (List.append_assoc _ _ _) ?_
    rw [List.filterMap_append,
      filterMap_no_entries fun p _ => (unreachableEvent_settles s req.addr p).2.1]
    rfl
  | @resolve req interface intf live found mac =>
    refine none_new rfl (filterMap_no_entries fun p _ => ?_)
    unfold Sr.replayEvent Sr.sendEvent
    split <;> rfl
  | unlink => rfl

/-- A queued packet is known by its address. -/
theorem queued_unique {ifList : List SrIf} {routingTable : List SrRt} {ops : List Op} {sr : Sr}
    (h : Run (Step env) (srInit ifList routingTable) ops sr) :
    ∀ p ∈ sr.queuedPackets, ∀ q ∈ sr.queuedPackets, q.addr = p.addr → q = p := by
  have inv : CustodyInv env sr ∧
      ∀ p ∈ sr.queuedPackets, ∀ q ∈ sr.queuedPackets, q.addr = p.addr → q = p := by
    refine run_invariant (fun sr => CustodyInv env sr ∧
      ∀ p ∈ sr.queuedPackets, ∀ q ∈ sr.queuedPackets, q.addr = p.addr → q = p) ?_ ?_
      ⟨custodyInv_init ifList routingTable, nofun⟩ h
    · intro s t hs move
      refine ⟨custodyInv_move hs.1 move, ?_⟩
      rw [move.queuedPackets]
      exact hs.2
    · intro s buf nextHop hs route long
      refine ⟨custodyInv_enqueue hs.1 route long, ?_⟩
      have queued : (s.enqueue nextHop.gw buf nextHop.interface).1.queuedPackets =
          s.queuedPackets ++ [s.newPacket buf nextHop.interface] := by
        rw [Sr.queuedPackets, trace_enqueue, List.filterMap_append]
        rfl
      have fresh : ∀ p ∈ s.queuedPackets, p.addr ≠ (s.newPacket buf nextHop.interface).addr := by
        intro p hp
        have small := hs.1.allocated p hp
        show p.addr ≠ s.allocations + 1
        omega
      rw [queued]
      intro p hp q hq same
      rcases List.mem_append.mp hp with hp | hp <;> rcases List.mem_append.mp hq with hq | hq
      · exact hs.2 p hp q hq same
      · rw [List.mem_singleton.mp hq] at same
        exact absurd same.symm (fresh p hp)
      · rw [List.mem_singleton.mp hp] at same
        exact absurd same (fresh q hq)
      · rw [List.mem_singleton.mp hp, List.mem_singleton.mp hq]
  exact inv.2

/-- A packet sent from the queue is the queued one with MAC addresses. -/
theorem replayed_outFrame {ifList : List SrIf} {routingTable : List SrRt} {ops : List Op}
    {sr : Sr} (h : Run (Step env) (srInit ifList routingTable) ops sr) {p q : SrPacket}
    {ip ip' : UInt32} {mac : Mac} {iface : IfName} {frame : List UInt8}
    (long : etherHdrSize ≤ p.buf.length) (queued : .queued ip p ∈ sr.trace)
    (sent : .sent (.replay q ip' mac) iface frame ∈ sr.trace) (same : q.addr = p.addr) :
    ∃ intf, frame = outFrame mac intf p.buf := by
  have inv : CustodyInv env sr := run_invariant (CustodyInv env) custodyInv_move
    custodyInv_enqueue (custodyInv_init ifList routingTable) h
  obtain ⟨asked, -, intf, rfl⟩ := inv.honest _ sent
  have hp : p ∈ sr.queuedPackets := List.mem_filterMap.mpr ⟨_, queued, rfl⟩
  have hq : q ∈ sr.queuedPackets := List.mem_filterMap.mpr ⟨_, asked, rfl⟩
  obtain rfl := queued_unique h p hp q hq same
  exact ⟨intf, replayFrame_eq mac intf long⟩

/-! ## Fidelity -/

theorem mem_trace_of_since {sr start : Sr} {e : Event} (h : e ∈ sr.since start) : e ∈ sr.trace :=
  List.mem_of_mem_drop h

/-- A step leads to an exit of `process_ip_packet`, and the function with its
edits takes it too. -/
theorem frame_step_leaves {sr sr' : Sr} {packet : List UInt8} {interface : IfName}
    (type : ethertype env packet = ethertypeIp)
    (step : Step env sr (.frame packet interface) sr') :
    ∃ buf, sr.leaveBy env packet interface (sr.ipExit env packet) = some (sr', buf) ∧
      sr.processIpPacketInPlace env packet interface =
        some ⟨sr', sr.ipExit env packet, buf⟩ := by
  unfold Step Sr.apply Sr.srHandlepacket at step
  dsimp only at step
  rw [type, if_neg (by decide), if_pos rfl, processIpPacket_leaveBy] at step
  obtain ⟨⟨sr₁, buf⟩, leaves, rfl⟩ := Option.map_eq_some_iff.mp step
  refine ⟨buf, leaves, ?_⟩
  rw [processIpPacketInPlace_eq, Sr.left, leaves]
  rfl

/-- What a step does to the buffer and the trace: the packet is sent as
rewritten, or queued as rewritten, or left alone. -/
theorem leaveBy_cases {sr sr' : Sr} {packet buf : List UInt8} {interface : IfName}
    (long : ipHdrSize + etherHdrSize ≤ packet.length)
    (h : sr.leaveBy env packet interface (sr.ipExit env packet) = some (sr', buf)) :
    (¬ 1 ≥ env.getU8 ipTtl packet ∧ ∃ mac intf, sr'.since sr =
        [.sent .forward intf.name (outFrame mac intf (rewritten env packet))]) ∨
      (¬ 1 ≥ env.getU8 ipTtl packet ∧ ∃ (nextHop : SrRt) (es : List Event), (∀ e ∈ es, e.Aside) ∧
        sr'.since sr = .queued nextHop.gw
          (sr.newPacket (rewritten env packet) nextHop.interface) :: es) ∨
      (buf = packet ∧ ∀ e ∈ sr'.since sr, e.Aside) := by
  have taken := takesExit_ipExit env sr packet
  generalize sr.ipExit env packet = exit at taken h
  cases taken with
  | forwarded _ alive _ =>
    obtain ⟨intf, since⟩ := leaveBy_forwarded long h
    exact .inl ⟨alive, _, intf, since⟩
  | queued _ alive _ _ =>
    obtain ⟨es, since, aside⟩ := leaveBy_queued h
    exact .inr (.inl ⟨alive, _, es, aside, since⟩)
  | tooShort | badHeaderSum | icmpTooShort | badIcmpSum | notEchoRequest | echoReply
  | portUnreachable | timeExceeded | netUnreachable =>
    obtain ⟨answered, same⟩ := answer_of_leaveBy rfl h
    exact .inr (.inr ⟨same, answer_aside answered⟩)

/-- **Forwarding fidelity.** A frame that is forwarded, at once or from the
queue, is the frame received with other MAC addresses, a TTL lower by one and
a checksum that makes its header valid. A frame that is neither forwarded nor
queued is left in the buffer as it was received. -/
theorem forwarding_preserves_frame {sr sr' : Sr} {packet : List UInt8} {interface : IfName}
    (long : ipHdrSize + etherHdrSize ≤ packet.length)
    (type : ethertype env packet = ethertypeIp)
    (step : Step env sr (.frame packet interface) sr') :
    (∀ iface frame, .sent .forward iface frame ∈ sr'.since sr → IsForwarded env packet frame) ∧
      (∀ ip p, .queued ip p ∈ sr'.since sr →
        ∀ ifList routingTable ops later sr'',
          Run (Step env) (srInit ifList routingTable) ops sr → Run (Step env) sr' later sr'' →
          ∀ q ip' mac iface frame, .sent (.replay q ip' mac) iface frame ∈ sr''.trace →
            q.addr = p.addr → IsForwarded env packet frame) ∧
      ∃ r, sr.processIpPacketInPlace env packet interface = some r ∧ r.sr = sr' ∧
        ((∀ iface frame, .sent .forward iface frame ∉ sr'.since sr) →
          (∀ ip p, .queued ip p ∉ sr'.since sr) → r.packet = packet) := by
  obtain ⟨buf, leaves, inPlace⟩ := frame_step_leaves type step
  have ways := leaveBy_cases long leaves
  refine ⟨?_, ?_, _, inPlace, rfl, ?_⟩
  · intro iface frame sent
    rcases ways with ⟨alive, mac, intf, since⟩ | ⟨-, nextHop, es, aside, since⟩ | ⟨-, aside⟩
    · rw [since] at sent
      injection List.mem_singleton.mp sent with _ _ eq
      exact eq ▸ isForwarded_outFrame mac intf long alive
    · rw [since] at sent
      rcases List.mem_cons.mp sent with same | sent
      · cases same
      · exact absurd rfl ((aside _ sent).1 iface frame)
    · exact absurd rfl ((aside _ sent).1 iface frame)
  · intro ip p queued ifList routingTable ops later sr'' before after q ip' mac iface frame sent
      same
    have whole : Run (Step env) (srInit ifList routingTable)
        (ops ++ [.frame packet interface] ++ later) sr'' := (Run.snoc before step).trans after
    have grows := run_trace_prefix after
    have kept : .queued ip p ∈ sr''.trace := grows.subset (mem_trace_of_since queued)
    rcases ways with ⟨-, _, intf, since⟩ | ⟨alive, nextHop, es, aside, since⟩ | ⟨-, aside⟩
    · rw [since] at queued
      cases List.mem_singleton.mp queued
    · rw [since] at queued
      rcases List.mem_cons.mp queued with eq | queued
      · injection eq with _ eq
        have buf : p.buf = rewritten env packet := by rw [eq]; rfl
        obtain ⟨intf, rfl⟩ := replayed_outFrame whole
          (by rw [buf, length_rewritten]; exact le_trans (by decide) long) kept sent same
        rw [buf]
        exact isForwarded_outFrame mac intf long alive
      · exact absurd rfl ((aside _ queued).2 ip p)
    · exact absurd rfl ((aside _ queued).2 ip p)
  · intro notSent notQueued
    rcases ways with ⟨-, mac, intf, since⟩ | ⟨-, nextHop, es, -, since⟩ | ⟨left, -⟩
    · exact absurd (since ▸ List.mem_singleton_self _) (notSent intf.name _)
    · exact absurd (since ▸ List.mem_cons_self) (notQueued nextHop.gw _)
    · exact left

/-- The router after a UDP packet whose next hop is not known. -/
def queuedUdp : Sr :=
  (twoPorts.apply .counting (.frame (udpFrame (.local 1) 1) eth0)).getD twoPorts

/-- The packet waits, and whatever is sent for it later is the packet
forwarded. -/
theorem forwarding_preserves_queued_udp :
    .queued 0x0a000102 (twoPorts.newPacket (rewritten .counting (udpFrame (.local 1) 1)) eth1) ∈
        queuedUdp.since twoPorts ∧
      ∀ later sr'', Run (Step .counting) queuedUdp later sr'' →
        ∀ q ip' mac iface frame, .sent (.replay q ip' mac) iface frame ∈ sr''.trace →
          q.addr = 1 → IsForwarded .counting (udpFrame (.local 1) 1) frame := by
  have step : Step .counting twoPorts (.frame (udpFrame (.local 1) 1) eth0) queuedUdp := by
    unfold Step
    decide +kernel
  have queued : .queued 0x0a000102
      (twoPorts.newPacket (rewritten .counting (udpFrame (.local 1) 1)) eth1) ∈
        queuedUdp.since twoPorts := by
    decide +kernel
  refine ⟨queued, ?_⟩
  intro later sr'' after q ip' mac iface frame sent addr
  exact (forwarding_preserves_frame (by decide) (by decide +kernel) step).2.1 _ _ queued _ _ []
    later sr'' .nil after q ip' mac iface frame sent addr

end NetLabs.Router
