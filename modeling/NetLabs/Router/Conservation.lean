/-
NetLabs.Router.Conservation — no queued packet is lost or answered twice.

A packet given to `sr_arpcache_queuereq` is under double entry
(`Lib.Ledger`): it is accepted when it is queued, it waits as long as it is
in the list of a request, and it is settled by being sent to the resolved
next hop, by a host unreachable to its source, or by neither, when the
request is given up and the Ethernet destination of the packet is the MAC of
no interface: then `process_arpreq` only prints a message
(`unmatched_packet_is_discarded`).
-/
import NetLabs.Lib.Ledger
import NetLabs.Router.Queue

namespace NetLabs.Router

open NetLabs.Lib ArpCache

variable {env : Env}

/-! ## Places of a packet -/

/-- How a queued packet ends. -/
inductive Outcome where
  /-- sent to the resolved next hop -/
  | transmitted
  /-- answered by a host unreachable -/
  | reported
  /-- neither; a message is printed -/
  | discarded
  deriving DecidableEq, Repr

/-- The packet an event settles. -/
def Event.settles? : Event → Option (SrPacket × Outcome)
  | .sent (.replay packet _ _) _ _ => some (packet, .transmitted)
  | .sent (.unreachable _ packet) _ _ => some (packet, .reported)
  | .unmatched _ packet => some (packet, .discarded)
  | _ => none

/-- The packet an event queues. -/
def Event.queued? : Event → Option SrPacket
  | .queued _ packet => some packet
  | _ => none

/-- The packets given to `sr_arpcache_queuereq` so far. -/
def Sr.queuedPackets (sr : Sr) : List SrPacket := sr.trace.filterMap Event.queued?

/-- The packets settled so far, with their outcomes. -/
def Sr.settled (sr : Sr) : List (SrPacket × Outcome) := sr.trace.filterMap Event.settles?

/-- What the frame of an event says, and when a packet is discarded. -/
def Event.Honest (env : Env) (sr : Sr) : Event → Prop
  | .sent (.replay packet ip mac) _ frame =>
      .queued ip packet ∈ sr.trace ∧ env.get etherDhost frame = mac.bytes ∧
        ∃ intf, frame = replayFrame mac intf packet.buf
  | .sent (.unreachable _ packet) _ frame => IsHostUnreachable env packet.buf frame
  | .unmatched _ packet =>
      sr.getInterfaceFromEth (env.getMac etherDhost.off packet.buf) = none
  | .refused (.replay _ _ _) _ _ | .refused (.unreachable _ _) _ _ => False
  | _ => True

/-- The Ethernet destination of a queued packet is the MAC of an interface. -/
def Sr.Matches (env : Env) (sr : Sr) (packet : SrPacket) : Prop :=
  sr.getInterfaceFromEth (env.getMac etherDhost.off packet.buf) ≠ none

/-- Every packet queued so far is in exactly one place, and only one whose
Ethernet destination is no MAC of the router is discarded. Every event is what
it is called. -/
structure Conserved (env : Env) (sr : Sr) : Prop where
  place : ∀ packet ∈ sr.queuedPackets,
    sr.waiting.count packet + sr.settled.count (packet, .transmitted) +
      sr.settled.count (packet, .reported) + sr.settled.count (packet, .discarded) = 1
  matched : ∀ packet ∈ sr.queuedPackets, sr.Matches env packet →
    sr.waiting.count packet + sr.settled.count (packet, .transmitted) +
      sr.settled.count (packet, .reported) = 1
  honest : ∀ e ∈ sr.trace, e.Honest env sr

/-! ## The invariant -/

/-- The queue is well formed and its packets are under double entry. -/
structure CustodyInv (env : Env) (sr : Sr) : Prop where
  queue : QueueInv sr
  balanced : Balanced sr.queuedPackets sr.waiting sr.settled
  allocated : ∀ packet ∈ sr.queuedPackets, packet.addr < sr.allocations
  honest : ∀ e ∈ sr.trace, e.Honest env sr

theorem custodyInv_init (ifList : List SrIf) (routingTable : List SrRt) :
    CustodyInv env (srInit ifList routingTable) where
  queue := queueInv_init ifList routingTable
  balanced := .nil
  allocated := nofun
  honest := nofun

/-- What was honest stays honest. -/
theorem Event.Honest.mono {s t : Sr} {e : Event} (h : e.Honest env s)
    (trace : s.trace <+: t.trace) (ifList : t.ifList = s.ifList) : e.Honest env t := by
  unfold Event.Honest at h ⊢
  split at h
  · exact ⟨trace.subset h.1, h.2⟩
  · exact h
  · unfold Sr.getInterfaceFromEth at h ⊢
    rw [ifList]
    exact h
  · exact h
  · exact h
  · trivial

/-- A move that queues no packet. -/
theorem CustodyInv.settle {s t : Sr} (h : CustodyInv env s) (queue : QueueInv t)
    {new : List Event} {out : List (SrPacket × Outcome)} (trace : t.trace = s.trace ++ new)
    (noneQueued : new.filterMap Event.queued? = []) (settled : new.filterMap Event.settles? = out)
    (leave : s.waiting.Perm (out.map Prod.fst ++ t.waiting))
    (alloc : t.allocations = s.allocations) (ifList : t.ifList = s.ifList)
    (honest : ∀ e ∈ new, e.Honest env t) : CustodyInv env t where
  queue := queue
  balanced := by
    rw [Sr.queuedPackets, Sr.settled, trace, List.filterMap_append, List.filterMap_append,
      noneQueued, List.append_nil, settled]
    exact h.balanced.settle leave
  allocated := by
    rw [Sr.queuedPackets, trace, List.filterMap_append, noneQueued, List.append_nil, alloc]
    exact h.allocated
  honest := by
    intro e he
    rw [trace] at he
    rcases List.mem_append.mp he with he | he
    · exact (h.honest e he).mono (trace ▸ List.prefix_append _ _) ifList
    · exact honest e he

/-! ## Moves -/

/-- How a packet of a request that is given up ends. -/
def Sr.endOf (env : Env) (sr : Sr) (packet : SrPacket) : Outcome :=
  match sr.getInterfaceFromEth (env.getMac etherDhost.off packet.buf) with
  | none => .discarded
  | some _ => .reported

/-- A packet of a request that is given up is answered or discarded. -/
theorem unreachableEvent_settles (sr : Sr) (request : Nat) (packet : SrPacket) :
    (sr.unreachableEvent env request packet).settles? = some (packet, sr.endOf env packet) ∧
      (sr.unreachableEvent env request packet).queued? = none ∧
      (sr.unreachableEvent env request packet).Honest env sr := by
  unfold Sr.unreachableEvent Sr.endOf
  cases matched : sr.getInterfaceFromEth (env.getMac etherDhost.off packet.buf) with
  | none => exact ⟨rfl, rfl, matched⟩
  | some intf =>
    obtain ⟨out, found⟩ := sr.srGetInterface_of_mem (List.mem_of_find?_eq_some matched)
    dsimp only
    rw [found]
    exact ⟨rfl, rfl, isHostUnreachable packet.buf out⟩

theorem custodyInv_giveUp {s : Sr} {req : ArpReq} (h : CustodyInv env s)
    (live : s.cache.deref req.addr = some req) (queue : QueueInv (s.giveUp env req)) :
    CustodyInv env (s.giveUp env req) := by
  obtain ⟨before, after, split, gone, -, -⟩ := split_of_find? live
  have trace : (s.giveUp env req).trace = s.trace ++
      (req.packets.map (s.unreachableEvent env req.addr) ++
        [.gaveUp req.addr (env.time s.ticks)]) := by
    rw [Sr.giveUp, List.append_assoc]
  refine h.settle queue trace ?_ rfl ?_ rfl rfl ?_
  · rw [List.filterMap_append,
      filterMap_no_entries fun p _ => (unreachableEvent_settles s req.addr p).2.1]
    rfl
  · have waiting : (s.giveUp env req).waiting = (before ++ after).flatMap ArpReq.packets := by
      rw [Sr.waiting, ← gone]
      rfl
    rw [List.filterMap_append,
      filterMap_entries fun p _ => (unreachableEvent_settles s req.addr p).1, waiting,
      List.map_append, List.map_map]
    simpa [Event.settles?, Function.comp_def, List.filterMap_cons] using waiting_without split
  · intro e he
    rcases List.mem_append.mp he with he | he
    · obtain ⟨p, -, rfl⟩ := List.mem_map.mp he
      exact (unreachableEvent_settles s req.addr p).2.2.mono (trace ▸ List.prefix_append _ _) rfl
    · obtain rfl := List.mem_singleton.mp he
      trivial

theorem custodyInv_resolve {s : Sr} {req : ArpReq} {interface : IfName} {intf : SrIf}
    (h : CustodyInv env s) (live : s.cache.findReq req.ip = some req)
    (found : s.srGetInterface interface = some intf) (mac : Mac)
    (queue : QueueInv (s.resolve req interface intf mac)) :
    CustodyInv env (s.resolve req interface intf mac) := by
  obtain ⟨before, after, split, gone⟩ := unlink_split h.queue live
  have mine : req ∈ s.cache.requests := List.mem_of_find?_eq_some live
  have long : ∀ p ∈ req.packets, ipHdrSize + etherHdrSize ≤ p.buf.length :=
    fun p hp => h.queue.long p (Sr.mem_waiting mine hp)
  have events : req.packets.map (s.replayEvent interface intf req.ip mac) =
      req.packets.map fun p =>
        .sent (.replay p req.ip mac) interface (replayFrame mac intf p.buf) :=
    List.map_congr_left fun p hp => replayEvent_eq env found (long p hp)
  have trace : (s.resolve req interface intf mac).trace = s.trace ++ req.packets.map fun p =>
      .sent (.replay p req.ip mac) interface (replayFrame mac intf p.buf) := by
    rw [Sr.resolve, events]
  have settled : (req.packets.map fun p =>
        Event.sent (.replay p req.ip mac) interface (replayFrame mac intf p.buf)).filterMap
      Event.settles? = req.packets.map fun p => (p, .transmitted) :=
    filterMap_entries fun p _ => rfl
  refine h.settle queue trace (filterMap_no_entries fun p _ => rfl) settled ?_ rfl rfl ?_
  · have waiting : (s.resolve req interface intf mac).waiting =
        (before ++ after).flatMap ArpReq.packets := by
      rw [Sr.waiting, ← gone]
      rfl
    rw [waiting, List.map_map]
    simpa [Function.comp_def] using waiting_without split
  · intro e he
    obtain ⟨p, hp, rfl⟩ := List.mem_map.mp he
    refine ⟨?_, replayFrame_destination mac intf (le_trans (by decide) (long p hp)), intf, rfl⟩
    rw [trace]
    exact List.mem_append_left _ (h.queue.asked req mine p hp)

theorem Event.Quiet.settles_none (env : Env) {e : Event} (h : e.Quiet) :
    e.settles? = none ∧ e.queued? = none ∧ ∀ sr, e.Honest env sr := by
  cases e with
  | sent cause | refused cause =>
    rcases h with rfl | rfl | rfl <;> exact ⟨rfl, rfl, fun _ => trivial⟩
  | visited => exact ⟨rfl, rfl, fun _ => trivial⟩
  | queued | unmatched | gaveUp => exact h.elim

theorem custodyInv_move {s t : Sr} (h : CustodyInv env s) (hmove : Move env s t) :
    CustodyInv env t := by
  have queue := queueInv_move h.queue hmove
  cases hmove with
  | @quiet e quiet =>
    obtain ⟨settled, queued, honest⟩ := quiet.settles_none env
    have trace : (s.log e).trace = s.trace ++ [e] := rfl
    refine h.settle queue trace (List.filterMap_cons_none queued)
      (List.filterMap_cons_none settled) (.refl _) rfl rfl ?_
    intro x hx
    obtain rfl := List.mem_singleton.mp hx
    exact honest _
  | table cache ticks same =>
    refine h.settle queue (List.append_nil _).symm rfl rfl ?_ rfl rfl nofun
    rw [Sr.waiting, Sr.waiting, same]
    exact .refl _
  | @broadcast req _ intf live due few first found =>
    have trace : (s.broadcast env req intf).trace = s.trace ++
        [.sent (.arpRequest req.addr (env.time (s.ticks + 1))) intf.name
          (arpRequestFrame intf req.ip)] := rfl
    have waiting : (s.broadcast env req intf).waiting = s.waiting := by
      refine waiting_map (fun r => ?_) rfl
      dsimp only
      split <;> rfl
    refine h.settle queue trace rfl rfl (waiting ▸ .refl _) rfl rfl ?_
    intro x hx
    obtain rfl := List.mem_singleton.mp hx
    trivial
  | giveUp live => exact custodyInv_giveUp h live queue
  | resolve live found mac => exact custodyInv_resolve h live found mac queue
  | unlink live idle => exact (h.queue.nonempty _ (List.mem_of_find?_eq_some live) idle).elim

theorem custodyInv_enqueue {s : Sr} {buf : List UInt8} {nextHop : SrRt} (h : CustodyInv env s)
    (route : nextHop ∈ s.routingTable) (long : ipHdrSize + etherHdrSize ≤ buf.length) :
    CustodyInv env (s.enqueue nextHop.gw buf nextHop.interface).1 := by
  have nonempty : buf.length ≠ 0 := nonempty_of_long long
  have trace := trace_enqueue s nextHop.gw buf nextHop.interface
  have waits : (s.enqueue nextHop.gw buf nextHop.interface).1.waiting.Perm
      (s.newPacket buf nextHop.interface :: s.waiting) := waiting_enqueue nonempty
  have queued : (s.enqueue nextHop.gw buf nextHop.interface).1.queuedPackets =
      s.queuedPackets ++ [s.newPacket buf nextHop.interface] := by
    rw [Sr.queuedPackets, trace, List.filterMap_append]
    rfl
  have settled : (s.enqueue nextHop.gw buf nextHop.interface).1.settled = s.settled := by
    rw [Sr.settled, trace, List.filterMap_append]
    exact List.append_nil _
  constructor
  · exact queueInv_enqueue h.queue route long
  · rw [queued, settled]
    refine h.balanced.accept (fun old => ?_) waits
    have small : s.allocations + 1 < s.allocations := h.allocated _ old
    omega
  · intro packet hp
    rw [queued] at hp
    rcases List.mem_append.mp hp with hp | hp
    · have small := h.allocated packet hp
      exact Nat.lt_trans small (Nat.lt_add_of_pos_right (by decide))
    · obtain rfl := List.mem_singleton.mp hp
      exact Nat.lt_succ_self _
  · intro e he
    rw [trace] at he
    rcases List.mem_append.mp he with he | he
    · exact (h.honest e he).mono (trace ▸ List.prefix_append _ _) rfl
    · obtain rfl := List.mem_singleton.mp he
      trivial

/-! ## Conservation -/

/-- Settled means settled with one of the three outcomes. -/
theorem count_settled (settled : List (SrPacket × Outcome)) (packet : SrPacket) :
    (settled.map Prod.fst).count packet = settled.count (packet, .transmitted) +
      settled.count (packet, .reported) + settled.count (packet, .discarded) := by
  induction settled with
  | nil => rfl
  | cons entry rest ih =>
    obtain ⟨other, outcome⟩ := entry
    rw [List.map_cons, List.count_cons, List.count_cons, List.count_cons, List.count_cons, ih]
    by_cases same : other = packet
    · subst same
      cases outcome <;> simp <;> omega
    · cases outcome <;> simp [same]

theorem CustodyInv.place {sr : Sr} (h : CustodyInv env sr) {packet : SrPacket}
    (hp : packet ∈ sr.queuedPackets) :
    sr.waiting.count packet + sr.settled.count (packet, .transmitted) +
      sr.settled.count (packet, .reported) + sr.settled.count (packet, .discarded) = 1 := by
  have one := h.balanced.count_eq_one hp
  rw [count_settled] at one
  omega

/-- A discarded packet matched no interface. -/
theorem CustodyInv.not_matches {sr : Sr} (h : CustodyInv env sr) {packet : SrPacket}
    (discarded : (packet, .discarded) ∈ sr.settled) : ¬ sr.Matches env packet := by
  obtain ⟨e, he, settles⟩ := List.mem_filterMap.mp discarded
  have honest := h.honest e he
  unfold Event.settles? at settles
  split at settles <;> cases settles
  exact not_not_intro honest

theorem CustodyInv.conserved {sr : Sr} (h : CustodyInv env sr) : Conserved env sr where
  place packet hp := h.place hp
  matched packet hp hm := by
    have place := h.place hp
    have none : sr.settled.count (packet, .discarded) = 0 :=
      List.count_eq_zero.mpr fun discarded => h.not_matches discarded hm
    omega
  honest := h.honest

/-- **Conservation.** In every state of every run each packet queued so far is
in exactly one place: it waits, was sent to its next hop, was answered by a
host unreachable, or was discarded because its Ethernet destination is no MAC
of the router. -/
theorem packets_conserved {ifList : List SrIf} {routingTable : List SrRt} {ops : List Op} {sr : Sr}
    (h : Run (Step env) (srInit ifList routingTable) ops sr) : Conserved env sr :=
  (run_invariant (CustodyInv env) custodyInv_move custodyInv_enqueue
    (custodyInv_init ifList routingTable) h).conserved

/-- Two packets wait for the next hop, and its reply arrives. -/
theorem packets_conserved_resolved :
    Conserved .counting ((twoPorts.applyAll .counting
      [.frame (udpFrame (.local 1) 1) eth0, .frame (udpFrame (.local 1) 2) eth0,
        .timeout, .frame (replyFrame (.local 7)) eth1]).get (by decide +kernel)) :=
  packets_conserved (run_applyAll (Option.some_get _).symm)

/-- A packet that came in an Ethernet broadcast is neither sent nor answered
nor kept when its request is given up. -/
theorem unmatched_packet_is_discarded :
    ¬ ∀ (ops : List Op) (sr : Sr), Run (Step .counting) twoPorts ops sr →
      ∀ packet ∈ sr.queuedPackets,
        sr.waiting.count packet + sr.settled.count (packet, .transmitted) +
          sr.settled.count (packet, .reported) = 1 := by
  intro general
  have h := general
    [.frame (udpFrame ⟨List.replicate 6 0xff, rfl⟩ 1) eth0, .timeout, .timeout, .timeout,
      .timeout, .timeout] _
    (run_applyAll (Option.some_get (by decide +kernel)).symm)
  revert h
  decide +kernel

end NetLabs.Router
