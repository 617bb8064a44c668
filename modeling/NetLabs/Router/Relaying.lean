/-
NetLabs.Router.Relaying — what one operation of a router takes on and passes
on.

A router takes on a packet when it forwards it at once or queues it, and it
passes on what it forwards at once or sends from the queue. A packet that is
taken on loses one of its TTL. What waits keeps its TTL until it is sent or
given up, so a router never passes on more than it got (`apply_balance`), and
all that it passes on or keeps is a packet it got as `IsForwarded` says
(`apply_passed`, `apply_held`).
-/
import NetLabs.Router.Fidelity
import NetLabs.Router.SlowPath
import Mathlib.Algebra.Order.BigOperators.Group.List
import Mathlib.Algebra.Order.Group.Nat

namespace NetLabs.Router

open NetLabs.Lib ArpCache

variable {env : Env}

/-! ## Datagrams -/

/-- The frame has room for an IP header, and says that it holds one. -/
def IsDatagram (frame : List UInt8) : Prop :=
  ipHdrSize + etherHdrSize ≤ frame.length ∧ slice frame etherType.off 2 = be16 ethertypeIp

instance (frame : List UInt8) : Decidable (IsDatagram frame) :=
  inferInstanceAs (Decidable (_ ∧ _))

/-- The TTL of a datagram. No other frame is forwarded. -/
def lifetime (frame : List UInt8) : Nat :=
  if IsDatagram frame then (frame.getD ipTtl.off 0).toNat else 0

theorem getU8_ipTtl {frame : List UInt8} (long : ipHdrSize + etherHdrSize ≤ frame.length) :
    env.getU8 ipTtl frame = frame.getD ipTtl.off 0 := by
  have inside : ipTtl.off < frame.length := Nat.lt_of_lt_of_le (by decide) long
  rw [Env.getU8, List.getD_eq_getElem?_getD, List.getD_eq_getElem?_getD,
    List.getElem?_eq_getElem inside, Option.getD_some, Option.getD_some]

theorem isDatagram_iff {packet : List UInt8} (long : ipHdrSize + etherHdrSize ≤ packet.length) :
    IsDatagram packet ↔ ethertype env packet = ethertypeIp := by
  have inside : etherType.off + etherType.size ≤ packet.length := le_trans (by decide) long
  have size : (slice packet etherType.off 2).length = 2 := length_slice inside
  rw [IsDatagram, and_iff_right long, ethertype, Env.getU16, Env.get, peek_eq_slice _ inside]
  constructor
  · intro h
    show ofBe16 (slice packet etherType.off 2) = _
    rw [h, ofBe16_be16]
  · intro h
    rw [← be16_ofBe16 size, ← h]

/-! ## Forwarded frames -/

variable {packet frame buf : List UInt8}

/-- Two bytes of a list. -/
theorem slice_two {l m : List UInt8} {off : Nat} (first : l[off]? = m[off]?)
    (second : l[off + 1]? = m[off + 1]?) : slice l off 2 = slice m off 2 := by
  refine List.ext_getElem? fun i => ?_
  rw [slice, slice, List.getElem?_take, List.getElem?_take, List.getElem?_drop,
    List.getElem?_drop]
  rcases i with _ | _ | i
  · rw [Nat.add_zero, first]
  · rw [second]
  · rw [if_neg (by omega), if_neg (by omega)]

/-- A forwarded datagram is one, with less to live. -/
theorem IsForwarded.datagram (h : IsForwarded env packet frame) (datagram : IsDatagram packet) :
    IsDatagram frame ∧ lifetime frame + 1 = lifetime packet := by
  obtain ⟨long, type⟩ := datagram
  have long' : ipHdrSize + etherHdrSize ≤ frame.length := h.length ▸ long
  have datagram' : IsDatagram frame :=
    ⟨long', (slice_two (h.same 12 (by decide) (by decide) (by decide) (by decide))
      (h.same 13 (by decide) (by decide) (by decide) (by decide))).trans type⟩
  refine ⟨datagram', ?_⟩
  have ttl := h.ttl
  rw [getU8_ipTtl long', getU8_ipTtl long] at ttl
  rw [lifetime, lifetime, if_pos datagram', if_pos ⟨long, type⟩, ttl]

theorem SameAfterMacs.symm (h : SameAfterMacs frame buf) : SameAfterMacs buf frame :=
  ⟨h.length ▸ h.long, h.length.symm, h.same.symm⟩

/-- The MAC addresses do not matter. -/
theorem IsForwarded.of_sameAfterMacs (h : IsForwarded env packet buf)
    (tail : SameAfterMacs frame buf) : IsForwarded env packet frame where
  length := tail.length.trans h.length
  same i behind ttl first second :=
    (tail.getElem? behind).trans (h.same i behind ttl first second)
  ttl := by
    rw [getU8_of_get rfl (tail.get (by decide))]
    exact h.ttl
  alive := by
    rw [getU8_of_get rfl (tail.get (by decide))]
    exact h.alive
  sum := by
    rw [headerSum, tail.get (by decide), ← headerSum]
    exact h.sum

/-- What is queued is the packet forwarded, but for its MAC addresses. -/
theorem isForwarded_rewritten (long : ipHdrSize + etherHdrSize ≤ packet.length)
    (ttl : ¬ 1 ≥ env.getU8 ipTtl packet) : IsForwarded env packet (rewritten env packet) := by
  have long' : ipHdrSize + etherHdrSize ≤ (rewritten env packet).length := by
    rwa [length_rewritten]
  exact (isForwarded_outFrame .zero ⟨eth0, .zero, 0⟩ long ttl).of_sameAfterMacs
    (sameAfterMacs_outFrame _ _ long').symm

theorem SameAfterMacs.lifetime (h : SameAfterMacs frame buf) :
    Router.lifetime frame = Router.lifetime buf := by
  have type : slice frame etherType.off 2 = slice buf etherType.off 2 :=
    slice_two (h.getElem? (by decide)) (h.getElem? (by decide))
  have ttl : frame.getD ipTtl.off 0 = buf.getD ipTtl.off 0 := by
    rw [List.getD_eq_getElem?_getD, List.getD_eq_getElem?_getD, h.getElem? (by decide)]
  have datagram : IsDatagram frame ↔ IsDatagram buf := by
    unfold IsDatagram
    rw [type, h.length]
  rw [Router.lifetime, Router.lifetime, ttl]
  exact if_congr datagram rfl rfl

/-! ## What is taken on and passed on -/

/-- The event takes a packet on. -/
def Event.takes : Event → Bool
  | .sent .forward _ _ | .queued _ _ => true
  | _ => false

/-- What the router sent in its own name. -/
def Event.own? : Event → Option (IfName × List UInt8)
  | .sent (.replay _ _ _) _ _ => none
  | .sent .forward _ _ => none
  | .sent _ iface frame => some (iface, frame)
  | _ => none

theorem Event.Aside.not_takes {e : Event} (h : e.Aside) : e.takes = false := by
  unfold Event.takes
  split
  · exact absurd rfl (h.1 _ _)
  · exact absurd rfl (h.2 _ _)
  · rfl

/-- The lifetimes of the packets on the queue. -/
def Sr.kept (sr : Sr) : Nat := (sr.waiting.map fun p => lifetime p.buf).sum

/-- The lifetimes of what the events pass on. -/
def passedOn (es : List Event) : Nat :=
  ((es.filterMap Event.forwarded?).map fun x => lifetime x.2).sum

theorem passedOn_append (es es' : List Event) :
    passedOn (es ++ es') = passedOn es + passedOn es' := by
  rw [passedOn, List.filterMap_append, List.map_append, List.sum_append]
  rfl

/-- The router has passed on packets of its queue only, and keeps what it has
not passed on or less. -/
structure Passes (s t : Sr) (es : List Event) : Prop where
  waiting : ∀ p ∈ t.waiting, p ∈ s.waiting
  passed : ∀ x ∈ es.filterMap Event.forwarded?, ∃ p ∈ s.waiting, SameAfterMacs x.2 p.buf
  balance : t.kept + passedOn es ≤ s.kept

theorem Passes.trans {s t u : Sr} {es es' : List Event} (h : Passes s t es)
    (h' : Passes t u es') : Passes s u (es ++ es') := by
  have first := h.balance
  have second := h'.balance
  refine ⟨fun p mem => h.waiting p (h'.waiting p mem), fun x mem => ?_, ?_⟩
  · rw [List.filterMap_append] at mem
    rcases List.mem_append.mp mem with old | new
    · exact h.passed x old
    · obtain ⟨p, mem, same⟩ := h'.passed x new
      exact ⟨p, h.waiting p mem, same⟩
  · rw [passedOn_append]
    omega

/-- Packets leave the queue, and nothing is passed on. -/
theorem Passes.silent {s t : Sr} {es : List Event} (queue : t.waiting.Sublist s.waiting)
    (none : es.filterMap Event.forwarded? = []) : Passes s t es := by
  refine ⟨fun p mem => queue.subset mem, fun x mem => ?_, ?_⟩
  · rw [none] at mem
    exact absurd mem List.not_mem_nil
  · rw [passedOn, none]
    exact (queue.map _).sum_le_sum fun _ _ => Nat.zero_le _

/-- The packets of a request leave the queue, and nothing else happens to it. -/
theorem kept_without {s t : Sr} {before after : List ArpReq} {req : ArpReq}
    (split : s.cache.requests = before ++ req :: after)
    (rest : t.cache.requests = before ++ after) :
    s.kept = (req.packets.map fun p => lifetime p.buf).sum + t.kept := by
  rw [Sr.kept, ((waiting_without split).map _).sum_eq, List.map_append, List.sum_append, Sr.kept,
    Sr.waiting, rest]

/-- What is passed on of a request that is resolved. -/
theorem resolve_passes (env : Env) {s : Sr} {req : ArpReq} {interface : IfName} {intf : SrIf}
    (inv : QueueInv s) (live : s.cache.findReq req.ip = some req)
    (found : s.srGetInterface interface = some intf) (mac : Mac) :
    Passes s (s.resolve req interface intf mac)
      (req.packets.map (s.replayEvent interface intf req.ip mac)) := by
  obtain ⟨before, after, split, gone⟩ := unlink_split inv live
  have mine : req ∈ s.cache.requests := List.mem_of_find?_eq_some live
  have sent : (req.packets.map (s.replayEvent interface intf req.ip mac)).filterMap
      Event.forwarded? = req.packets.map fun p => (interface, outFrame mac intf p.buf) := by
    rw [replay_forwarded env inv mine found, List.map_map]
    refine List.map_congr_left fun p _ => ?_
    rw [Function.comp_apply, Sr.outgoing, found]
  have tail : ∀ p ∈ req.packets, SameAfterMacs (outFrame mac intf p.buf) p.buf :=
    fun p hp => sameAfterMacs_outFrame mac intf (inv.long p (Sr.mem_waiting mine hp))
  constructor
  · intro p hp
    rw [Sr.waiting, show (s.resolve req interface intf mac).cache.requests = _ from gone] at hp
    exact (waiting_without split).mem_iff.mpr (List.mem_append_right _ hp)
  · intro x hx
    rw [sent] at hx
    obtain ⟨p, hp, rfl⟩ := List.mem_map.mp hx
    exact ⟨p, Sr.mem_waiting mine hp, tail p hp⟩
  · have same : passedOn (req.packets.map (s.replayEvent interface intf req.ip mac)) =
        (req.packets.map fun p => lifetime p.buf).sum := by
      rw [passedOn, sent, List.map_map]
      exact congrArg List.sum (List.map_congr_left fun p hp => (tail p hp).lifetime)
    rw [same, kept_without (t := s.resolve req interface intf mac) split gone, Nat.add_comm]

/-- What a move passes on that does not forward anything at once. -/
theorem Move.passes {s t : Sr} (inv : QueueInv s) (h : Move env s t) :
    ∃ es, t.trace = s.trace ++ es ∧ ((∀ e ∈ es, e.Aside) → Passes s t es) := by
  cases h with
  | @quiet e quiet =>
    refine ⟨[e], rfl, fun aside => .silent (.refl _) ?_⟩
    have plain := (aside e (List.mem_singleton_self e)).1
    unfold Event.forwarded?
    match e, quiet with
    | .sent .forward iface frame, _ => exact absurd rfl (plain iface frame)
    | .sent .arpReply _ _, _ | .sent .icmp _ _, _ | .refused _ _ _, _ | .visited _, _ => rfl
  | table cache ticks queue =>
    refine ⟨[], (List.append_nil _).symm, fun _ => .silent ?_ rfl⟩
    rw [Sr.waiting, queue]
    exact .refl _
  | @broadcast req packet intf live due few first found =>
    refine ⟨_, rfl, fun _ => .silent ?_ rfl⟩
    have same : (s.broadcast env req intf).waiting = s.waiting := by
      refine waiting_map (fun r => ?_) rfl
      dsimp only
      split <;> rfl
    rw [same]
  | @giveUp req live due many =>
    refine ⟨_, List.append_assoc _ _ _, fun _ => .silent ?_ ?_⟩
    · exact List.Sublist.flatMap List.eraseP_sublist _
    · rw [List.filterMap_append, filterMap_no_entries fun p _ => ?_]
      · rfl
      · rcases unreachableEvent_cases env s req.addr p with eq | ⟨iface, frame, eq⟩ <;> rw [eq] <;>
          rfl
  | @resolve req interface intf live found mac =>
    exact ⟨_, rfl, fun _ => resolve_passes env inv live found mac⟩
  | @unlink req live idle =>
    refine ⟨[], (List.append_nil _).symm, fun _ => .silent ?_ rfl⟩
    exact List.Sublist.flatMap (List.eraseP_sublist.trans List.eraseP_sublist) _

/-- What moves pass on that do not forward anything at once. -/
theorem Moves.passes {s t : Sr} (inv : QueueInv s) (h : Moves env s t) :
    QueueInv t ∧ ∃ es, t.trace = s.trace ++ es ∧ ((∀ e ∈ es, e.Aside) → Passes s t es) := by
  induction h with
  | refl =>
    refine ⟨inv, [], (List.append_nil _).symm, fun _ => .silent (.refl _) rfl⟩
  | tail _ move ih =>
    obtain ⟨inv', es, trace, passes⟩ := ih
    obtain ⟨es', trace', passes'⟩ := move.passes inv'
    refine ⟨queueInv_move inv' move, es ++ es', ?_, fun aside => ?_⟩
    · rw [trace', trace, List.append_assoc]
    · exact (passes fun e he => aside e (List.mem_append_left _ he)).trans
        (passes' fun e he => aside e (List.mem_append_right _ he))

/-! ## One operation -/

/-- The datagram that comes with an operation. -/
def Op.brings (op : Op) (packet : List UInt8) : Prop :=
  ∃ interface, op = .frame packet interface ∧ IsDatagram packet

/-- The TTL that comes with an operation. -/
def Op.lifetime : Op → Nat
  | .frame packet _ => Router.lifetime packet
  | .timeout => 0

/-- What an operation does with the packets the router has and the one it
gets. -/
structure Relays (env : Env) (s t : Sr) (op : Op) (es : List Event) : Prop where
  /-- What waits was waiting, or it is what came in. -/
  held : ∀ p ∈ t.waiting, p ∈ s.waiting ∨
    ∃ packet, op.brings packet ∧ IsForwarded env packet p.buf
  /-- What is passed on is what came in, or a packet that waited. -/
  passed : ∀ x ∈ es.filterMap Event.forwarded?,
    (∃ packet, op.brings packet ∧ IsForwarded env packet x.2) ∨
      ∃ p ∈ s.waiting, SameAfterMacs x.2 p.buf
  balance : es.countP Event.takes + t.kept + passedOn es ≤ s.kept + op.lifetime

/-- Nothing is taken on. -/
theorem Passes.relays {s t : Sr} {es : List Event} (h : Passes s t es)
    (aside : ∀ e ∈ es, e.Aside) (op : Op) : Relays env s t op es := by
  have none : es.countP Event.takes = 0 :=
    List.countP_eq_zero.mpr fun e mem => by rw [(aside e mem).not_takes]; exact Bool.false_ne_true
  refine ⟨fun p mem => .inl (h.waiting p mem), fun x mem => .inr (h.passed x mem), ?_⟩
  have balance := h.balance
  omega

/-- Moves that do not forward anything at once, with what they add to the
trace. -/
theorem Moves.relays {s t : Sr} (inv : QueueInv s) (h : Moves env s t)
    (adds : s.Adds Event.Aside t) (op : Op) :
    ∃ es, t.trace = s.trace ++ es ∧ Relays env s t op es := by
  obtain ⟨-, es, trace, passes⟩ := h.passes inv
  obtain ⟨es', trace', aside⟩ := adds
  obtain rfl : es = es' := List.append_cancel_left (trace.symm.trans trace')
  exact ⟨es, trace, (passes aside).relays aside op⟩

theorem processArpreq_adds {s t : Sr} {request : Nat} (h : s.processArpreq env request = some t) :
    s.Adds Event.Aside t :=
  processArpreq_aside h

theorem timeout_adds {s t : Sr} (h : s.srArpcacheTimeout env = some t) : s.Adds Event.Aside t := by
  unfold Sr.srArpcacheTimeout Sr.srArpcacheSweepreqs at h
  have swept := sweepLoop_adds (fun _ => ⟨nofun, nofun⟩) processArpreq_adds h
  exact swept

theorem processArpPacket_adds {s t : Sr} {packet : List UInt8} {interface : IfName}
    (h : s.processArpPacket env packet interface = some t) : s.Adds Event.Aside t := by
  have whole := h
  unfold Sr.processArpPacket at h
  split at h
  · exact .of_eq (congrArg Sr.trace (Option.some.inj h).symm)
  rename_i long
  dsimp only at h
  split at h
  · split at h
    · cases h
    · split at h
      · exact .of_eq (congrArg Sr.trace (Option.some.inj h).symm)
      · obtain rfl := Option.some.inj h
        rw [Sr.srSendPacket_eq]
        exact .one rfl (sendEvent_aside s _ _ nofun)
  split at h
  · rename_i op
    rcases arpReply_cases long op rfl rfl whole with
      ⟨-, rfl⟩ | ⟨req, -, -, ⟨-, rfl⟩ | ⟨intf, -, rfl⟩⟩
    · exact .of_eq rfl
    · exact .of_eq rfl
    · refine ⟨_, rfl, fun e mem => ?_⟩
      obtain ⟨p, -, rfl⟩ := List.mem_map.mp mem
      exact sendEvent_aside _ _ _ nofun
  · exact .of_eq (congrArg Sr.trace (Option.some.inj h).symm)

theorem answer_moves {s t : Sr} {packet : List UInt8} {interface : IfName}
    {message : Option (UInt8 × UInt8 × Option SrIf)}
    (h : s.answer env packet interface message = some t) : Moves env s t := by
  cases message with
  | none =>
    obtain rfl := Option.some.inj h
    exact .refl
  | some message => exact icmp_moves h

theorem Moves.trace_prefix {s t : Sr} (h : Moves env s t) : s.trace <+: t.trace :=
  chain_invariant (fun t => s.trace <+: t.trace) (fun ht move => ht.trans move.trace_prefix) h
    (List.prefix_refl _)

theorem answer_adds {s t : Sr} {packet : List UInt8} {interface : IfName}
    {message : Option (UInt8 × UInt8 × Option SrIf)}
    (h : s.answer env packet interface message = some t) : s.Adds Event.Aside t := by
  obtain ⟨es, trace⟩ := Moves.trace_prefix (answer_moves h)
  refine ⟨es, trace.symm, ?_⟩
  rw [← since_eq trace.symm]
  exact answer_aside h

/-- A packet that is forwarded at once. -/
theorem relays_forwarded {s t : Sr} {packet buf : List UInt8} {interface : IfName}
    {nextHop : SrRt} {mac : Mac} (datagram : IsDatagram packet)
    (alive : ¬ 1 ≥ env.getU8 ipTtl packet)
    (h : s.leaveBy env packet interface (.forwarded nextHop mac) = some (t, buf)) :
    ∃ es, t.trace = s.trace ++ es ∧ Relays env s t (.frame packet interface) es := by
  have long := datagram.1
  obtain ⟨intf, since⟩ := leaveBy_forwarded long h
  have forwarded := isForwarded_outFrame mac intf long alive
  have lower := (forwarded.datagram datagram).2
  obtain ⟨_, -, eq⟩ := Option.map_eq_some_iff.mp h
  obtain ⟨rfl, -⟩ := Prod.mk.inj eq
  rw [Sr.srSendPacket_eq, since_eq rfl] at since
  refine ⟨_, (congrArg Sr.trace (Sr.srSendPacket_eq ..)).trans (congrArg (s.trace ++ ·) since),
    fun p mem => .inl ?_, fun x mem => .inl ⟨packet, ⟨interface, rfl, datagram⟩, ?_⟩, ?_⟩
  · rwa [Sr.srSendPacket_eq] at mem
  · rw [List.mem_singleton.mp mem]
    exact forwarded
  · rw [Sr.srSendPacket_eq]
    show 1 + s.kept + (lifetime (outFrame mac intf (rewritten env packet)) + 0) ≤
      s.kept + lifetime packet
    omega

/-- A packet that is queued. -/
theorem relays_queued {s t : Sr} {packet buf : List UInt8} {interface : IfName}
    {nextHop : SrRt} (inv : QueueInv s) (datagram : IsDatagram packet)
    (alive : ¬ 1 ≥ env.getU8 ipTtl packet) (route : nextHop ∈ s.routingTable)
    (h : s.leaveBy env packet interface (.queued nextHop) = some (t, buf)) :
    ∃ es, t.trace = s.trace ++ es ∧ Relays env s t (.frame packet interface) es := by
  have long := datagram.1
  have long' : ipHdrSize + etherHdrSize ≤ (rewritten env packet).length := by
    rwa [length_rewritten]
  have forwarded : IsForwarded env packet (rewritten env packet) :=
    isForwarded_rewritten long alive
  have lower := (forwarded.datagram datagram).2
  obtain ⟨t', visited, eq⟩ := Option.map_eq_some_iff.mp h
  obtain ⟨rfl, -⟩ := Prod.mk.inj eq
  have waiting : (s.enqueue nextHop.gw (rewritten env packet) nextHop.interface).1.waiting.Perm
      (s.newPacket (rewritten env packet) nextHop.interface :: s.waiting) :=
    waiting_enqueue (nonempty_of_long long')
  have kept : (s.enqueue nextHop.gw (rewritten env packet) nextHop.interface).1.kept =
      lifetime (rewritten env packet) + s.kept := (waiting.map _).sum_eq
  obtain ⟨es, trace, relays⟩ := (processArpreq_moves visited).relays
    (queueInv_enqueue inv route long') (processArpreq_adds visited) .timeout
  have brings : (Op.frame packet interface).brings packet := ⟨interface, rfl, datagram⟩
  refine ⟨.queued nextHop.gw (s.newPacket (rewritten env packet) nextHop.interface) :: es, ?_,
    fun p mem => ?_, fun x mem => ?_, ?_⟩
  · rw [trace, trace_enqueue, List.append_assoc]
    rfl
  · rcases relays.held p mem with waits | ⟨_, ⟨_, absurd, -⟩, -⟩
    · rcases List.mem_cons.mp (waiting.mem_iff.mp waits) with rfl | old
      · exact .inr ⟨packet, brings, forwarded⟩
      · exact .inl old
    · cases absurd
  · rcases relays.passed x mem with ⟨_, ⟨_, absurd, -⟩, -⟩ | ⟨p, waits, same⟩
    · cases absurd
    · rcases List.mem_cons.mp (waiting.mem_iff.mp waits) with rfl | old
      · exact .inl ⟨packet, brings, forwarded.of_sameAfterMacs same⟩
      · exact .inr ⟨p, old, same⟩
  · have balance := relays.balance
    rw [kept] at balance
    rw [List.countP_cons_of_pos rfl]
    have same : passedOn (.queued nextHop.gw (s.newPacket (rewritten env packet) nextHop.interface)
        :: es) = passedOn es := rfl
    rw [same]
    dsimp only [Op.lifetime] at balance ⊢
    omega

theorem processIpPacket_relays {s t : Sr} {packet : List UInt8} {interface : IfName}
    (inv : QueueInv s) (type : ethertype env packet = ethertypeIp)
    (h : s.processIpPacket env packet interface = some t) :
    ∃ es, t.trace = s.trace ++ es ∧ Relays env s t (.frame packet interface) es := by
  rw [processIpPacket_leaveBy] at h
  obtain ⟨⟨t', buf⟩, leaves, rfl⟩ := Option.map_eq_some_iff.mp h
  have taken := takesExit_ipExit env s packet
  generalize s.ipExit env packet = exit at taken leaves
  cases taken with
  | forwarded long alive _ =>
    exact relays_forwarded ((isDatagram_iff long).mpr type) alive leaves
  | queued long alive route _ =>
    exact relays_queued inv ((isDatagram_iff long).mpr type) alive
      ((bestMatchLoop_mem route).resolve_right nofun) leaves
  | tooShort | badHeaderSum | icmpTooShort | badIcmpSum | notEchoRequest | echoReply
  | portUnreachable | timeExceeded | netUnreachable =>
    obtain ⟨answered, -⟩ := answer_of_leaveBy rfl leaves
    exact (answer_moves answered).relays inv (answer_adds answered) _

/-- What an operation relays. -/
theorem apply_relays {s t : Sr} {op : Op} (inv : QueueInv s) (h : Step env s op t) :
    ∃ es, t.trace = s.trace ++ es ∧ Relays env s t op es := by
  cases op with
  | timeout => exact (timeout_moves h).relays inv (timeout_adds h) _
  | frame packet interface =>
    unfold Step Sr.apply Sr.srHandlepacket at h
    dsimp only at h
    split at h
    · exact (processArpPacket_moves h).relays inv (processArpPacket_adds h) _
    · split at h
      · exact processIpPacket_relays inv ‹_› h
      · obtain rfl := Option.some.inj h
        exact Moves.relays inv .refl (.of_eq rfl) _

end NetLabs.Router
