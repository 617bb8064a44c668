/-
NetLabs.Router.Network — routers wired together.

`routers` is a network of routers, each with its own machine, interfaces and
routes. A wire leads from one interface to another, or outside. A frame from
outside is a packet of some host; what a router sends in its own name, an ARP
or an ICMP packet, is another origin. Frames on the wires may get lost and
overtake one another, and any router may wake up at any time.

No frame in such a network is made up: it is an origin that was forwarded some
number of times, and shows it (`network_fidelity`). And however the routes
run, in a circle too, all routers together forward a packet at most as often
as its TTL says (`network_forwards_bounded`).
-/
import NetLabs.Lib.Relay
import NetLabs.Router.Relaying

namespace NetLabs.Router

open NetLabs.Lib

variable {ι : Type}

/-! ## The network -/

/-- What a router is asked to do by a frame, and by waking up. -/
def Op.of : Option (IfName × List UInt8) → Op
  | some (interface, packet) => .frame packet interface
  | none => .timeout

/-- Routers with a wire at each interface. -/
def routers (env : ι → Env) (wire : ι → IfName → Option (ι × IfName)) :
    RelayNet ι Sr IfName (List UInt8) where
  react i sr input := (sr.apply (env i) (.of input)).map fun sr' =>
    (sr', ⟨(sr'.since sr).filterMap Event.forwarded?, (sr'.since sr).filterMap Event.own?⟩)
  wire := wire

/-- The routers as they start. -/
def fresh (config : ι → List SrIf × List SrRt) (i : ι) : Sr := srInit (config i).1 (config i).2

variable {env : ι → Env} {wire : ι → IfName → Option (ι × IfName)}

theorem Op.lifetime_of (input : Option (IfName × List UInt8)) :
    (Op.of input).lifetime = (input.map fun x => Router.lifetime x.2).getD 0 := by
  cases input <;> rfl

theorem Op.brings_of {input : Option (IfName × List UInt8)} {packet : List UInt8}
    (h : (Op.of input).brings packet) :
    ∃ interface, input = some (interface, packet) ∧ IsDatagram packet := by
  obtain ⟨interface, eq, datagram⟩ := h
  cases input with
  | none => cases eq
  | some x =>
    cases eq
    exact ⟨_, rfl, datagram⟩

/-- What holds of the router at a node in every state. -/
structure Placed (config : ι → List SrIf × List SrRt) (i : ι) (sr : Sr) : Prop where
  queue : QueueInv sr
  ifList : sr.ifList = (config i).1

theorem placed_fresh (config : ι → List SrIf × List SrRt) (i : ι) :
    Placed config i (fresh config i) :=
  ⟨queueInv_init (config i).1 (config i).2, rfl⟩

/-- A router in the network makes the step of its operation. -/
theorem routers_step {i : ι} {s t : Sr} {input : Option (IfName × List UInt8)}
    {effect : Effect IfName (List UInt8)}
    (h : (routers env wire).react i s input = some (t, effect)) :
    Step (env i) s (.of input) t ∧ ∀ es, t.trace = s.trace ++ es →
      effect = ⟨es.filterMap Event.forwarded?, es.filterMap Event.own?⟩ := by
  obtain ⟨t', step, eq⟩ := Option.map_eq_some_iff.mp h
  obtain ⟨rfl, rfl⟩ := Prod.mk.inj eq
  exact ⟨step, fun es trace => by rw [since_eq trace]⟩

theorem placed_react {config : ι → List SrIf × List SrRt} {i : ι} {s t : Sr}
    {input : Option (IfName × List UInt8)} {effect : Effect IfName (List UInt8)}
    (placed : Placed config i s) (h : (routers env wire).react i s input = some (t, effect)) :
    Placed config i t := by
  have step := (routers_step h).1
  exact ⟨step_invariant QueueInv queueInv_move queueInv_enqueue placed.queue step,
    step.config.1.trans placed.ifList⟩

/-- What a router in the network relays. -/
theorem routers_relay {i : ι} {s t : Sr} {input : Option (IfName × List UInt8)}
    {effect : Effect IfName (List UInt8)} (inv : QueueInv s)
    (h : (routers env wire).react i s input = some (t, effect)) :
    ∃ es, t.trace = s.trace ++ es ∧ Relays (env i) s t (.of input) es ∧
      effect.relayed = es.filterMap Event.forwarded? := by
  obtain ⟨step, effects⟩ := routers_step h
  obtain ⟨es, trace, relays⟩ := apply_relays inv step
  exact ⟨es, trace, relays, by rw [effects es trace]⟩

/-! ## How often packets are forwarded -/

/-- How many packets the router forwarded at once or queued. -/
def Sr.takenOn (sr : Sr) : Nat := sr.trace.countP Event.takes

/-- The TTL of the frames, on the wires and on the queues. -/
def lifetimes (env : ι → Env) (wire : ι → IfName → Option (ι × IfName))
    (config : ι → List SrIf × List SrRt) : Energy (routers env wire) where
  inv := Placed config
  lifetime := lifetime
  kept _ := Sr.kept
  spent _ := Sr.takenOn
  inv_react := placed_react
  balance {i s input t effect} placed h := by
    obtain ⟨es, trace, relays, relayed⟩ := routers_relay placed.queue h
    have balance := relays.balance
    have spent : t.takenOn = s.takenOn + es.countP Event.takes := by
      rw [Sr.takenOn, trace, List.countP_append]
      rfl
    rw [Op.lifetime_of] at balance
    rw [relayed, spent]
    unfold passedOn at balance
    omega

/-- **A packet is forwarded no more often than its TTL says**, by all routers
of a network together, whatever their routes are and however they are wired. -/
theorem network_forwards_bounded [Fintype ι] [DecidableEq ι]
    {config : ι → List SrIf × List SrRt} {events : List (Happening ι IfName (List UInt8))}
    {net : Net ι Sr IfName (List UInt8)}
    (h : Run (routers env wire).NetStep (RelayNet.start (fresh config)) events net) :
    ∑ i, (net.nodes i).trace.countP Event.takes ≤ (net.origins.map lifetime).sum :=
  (lifetimes env wire config).spent_le (placed_fresh config) (fun _ => rfl) (fun _ => rfl) h

/-! ## What frames come from -/

/-- `frame` is `origin` after `n` forwardings: what a router edits shows how
many there were, and all else is as it was. -/
structure Aged (origin : List UInt8) (n : Nat) (frame : List UInt8) : Prop where
  length : frame.length = origin.length
  same : ∀ k, macsSize ≤ k → k ≠ ipTtl.off → k ≠ ipSum.off → k ≠ ipSum.off + 1 →
    frame[k]? = origin[k]?
  ttl : lifetime frame + n = lifetime origin
  untouched : n = 0 → frame = origin
  /-- A frame that was forwarded is a datagram that may live, and its header is valid. -/
  valid : 0 < n → IsDatagram frame ∧ 1 ≤ lifetime frame ∧ ∀ env, headerSum env frame = 0xffff

/-- What is outside the frame does not matter to the checksum of its header. -/
theorem headerSum_congr {frame : List UInt8} (long : ipHdrSize + etherHdrSize ≤ frame.length)
    (env env' : Env) : headerSum env frame = headerSum env' frame := by
  have inside : ipHdr.off + ipHdr.size ≤ frame.length := long
  rw [headerSum, headerSum, Env.get, Env.get, peek_eq_slice _ inside, peek_eq_slice _ inside]

/-- The hop of a packet through any of the routers. -/
def Forwards (env : ι → Env) (packet frame : List UInt8) : Prop :=
  IsDatagram packet ∧ ∃ i, IsForwarded (env i) packet frame

theorem aged_of_hops {origin frame : List UInt8} {n : Nat}
    (h : Hops (Forwards env) origin n frame) : Aged origin n frame := by
  induction h with
  | none => exact ⟨rfl, fun _ _ _ _ _ => rfl, rfl, fun _ => rfl, fun no => absurd no (lt_irrefl 0)⟩
  | @more n packet frame _ last ih =>
    obtain ⟨datagram, i, forwarded⟩ := last
    obtain ⟨datagram', lower⟩ := forwarded.datagram datagram
    refine ⟨forwarded.length.trans ih.length, fun k behind ttl first second => ?_, ?_, nofun,
      fun _ => ⟨datagram', ?_, fun any => ?_⟩⟩
    · exact (forwarded.same k behind ttl first second).trans (ih.same k behind ttl first second)
    · have ttl := ih.ttl
      omega
    · have alive := forwarded.alive
      rw [getU8_ipTtl datagram'.1] at alive
      rw [lifetime, if_pos datagram']
      exact UInt8.le_iff_toNat_le.mp alive
    · exact (headerSum_congr datagram'.1 any (env i)).trans forwarded.sum

/-- Where frames come from. -/
def sources (env : ι → Env) (wire : ι → IfName → Option (ι × IfName))
    (config : ι → List SrIf × List SrRt) : Provenance (routers env wire) where
  inv := Placed config
  hop := Forwards env
  holds _ sr buf := ∃ p ∈ sr.waiting, p.buf = buf
  inv_react := placed_react
  held {i s input t effect buf} placed h holds := by
    obtain ⟨es, -, relays, -⟩ := routers_relay placed.queue h
    obtain ⟨p, waits, rfl⟩ := holds
    rcases relays.held p waits with old | ⟨packet, brought, forwarded⟩
    · exact .inl ⟨p, old, rfl⟩
    · obtain ⟨interface, came, datagram⟩ := Op.brings_of brought
      exact .inr ⟨interface, packet, came, datagram, i, forwarded⟩
  passed {i s input t effect x} placed h mem := by
    obtain ⟨es, -, relays, relayed⟩ := routers_relay placed.queue h
    rw [relayed] at mem
    rcases relays.passed x mem with ⟨packet, brought, forwarded⟩ | ⟨p, waits, same⟩
    · obtain ⟨interface, came, datagram⟩ := Op.brings_of brought
      exact .inl ⟨interface, packet, came, datagram, i, forwarded⟩
    · refine .inr ⟨p.buf, ⟨p, waits, rfl⟩, fun m hop => ?_⟩
      obtain ⟨datagram, j, forwarded⟩ := hop
      exact ⟨datagram, j, forwarded.of_sameAfterMacs same⟩

theorem not_holds_fresh {config : ι → List SrIf × List SrRt} (i : ι) (buf : List UInt8) :
    ¬ (sources env wire config).holds i (fresh config i) buf := by
  rintro ⟨p, waits, -⟩
  exact absurd waits List.not_mem_nil

/-- **No frame is made up.** Every frame on a wire of a network, and every one
that has left it, is a frame that a host or a router sent, as it is after some
number of forwardings: the TTL says how many. -/
theorem network_fidelity [DecidableEq ι] {config : ι → List SrIf × List SrRt}
    {events : List (Happening ι IfName (List UInt8))} {net : Net ι Sr IfName (List UInt8)}
    (h : Run (routers env wire).NetStep (RelayNet.start (fresh config)) events net) :
    ∀ x ∈ net.flying ++ net.outside, ∃ origin ∈ net.origins, ∃ n, Aged origin n x.2 := by
  intro x mem
  obtain ⟨origin, known, n, hops⟩ :=
    (sources env wire config).chain (placed_fresh config) not_holds_fresh h x mem
  exact ⟨origin, known, n, aged_of_hops hops⟩

/-! ## Two routers that route to each other -/

/-- Two routers on one wire; the default route of each is the other. -/
def ring (left : Bool) : List SrIf × List SrRt :=
  if left then
    ([⟨eth0, .local 1, 0x0a000001⟩, ⟨eth1, .local 2, 0x0a000101⟩], [⟨0, 0x0a000102, 0, eth1⟩])
  else ([⟨eth1, .local 3, 0x0a000102⟩], [⟨0, 0x0a000101, 0, eth1⟩])

/-- The wire leads from one `eth1` to the other. -/
def ringWire (left : Bool) (interface : IfName) : Option (Bool × IfName) :=
  if interface = eth1 then some (!left, eth1) else none

/-- A packet comes, and every frame on the wire arrives: two requests and two
replies, and the packet three times. -/
def ringEvents : List (Happening Bool IfName (List UInt8)) :=
  .inject (true, eth0) (udpFrame (.local 1) 1) :: List.replicate 7 (.deliver 0)

abbrev ringNet : RelayNet Bool Sr IfName (List UInt8) := routers (fun _ => .counting) ringWire

/-- The packet turns between the two: it was taken on three times, and has three
less to live. -/
theorem ring_turns :
    ∃ net, Run ringNet.NetStep (RelayNet.start (fresh ring)) ringEvents net ∧
      net.flying.map (fun x => lifetime x.2) = [61] ∧
      ∑ i, (net.nodes i).trace.countP Event.takes = 3 := by
  have done : (ringEvents.foldlM ringNet.next (RelayNet.start (fresh ring))).any
      (fun net => net.flying.map (fun x => lifetime x.2) = [61] ∧
        ∑ i, (net.nodes i).trace.countP Event.takes = 3) = true := by
    decide +kernel
  obtain ⟨net, handled, turning⟩ := (Option.any_eq_true _ _).mp done
  exact ⟨net, run_iff_foldlM.mpr handled, of_decide_eq_true turning⟩

theorem network_forwards_bounded_ring :
    ∃ net, Run ringNet.NetStep (RelayNet.start (fresh ring)) ringEvents net ∧
      3 ≤ (net.origins.map lifetime).sum := by
  obtain ⟨net, run, -, three⟩ := ring_turns
  exact ⟨net, run, three ▸ network_forwards_bounded run⟩

theorem network_fidelity_ring :
    ∃ net, Run ringNet.NetStep (RelayNet.start (fresh ring)) ringEvents net ∧
      ∃ x ∈ net.flying, lifetime x.2 = 61 ∧ ∃ origin ∈ net.origins, ∃ n, Aged origin n x.2 := by
  obtain ⟨net, run, turning, -⟩ := ring_turns
  obtain ⟨x, mem, ttl⟩ := List.mem_map.mp (turning.symm ▸ List.mem_singleton_self 61)
  exact ⟨net, run, x, mem, ttl, network_fidelity run x (List.mem_append_left _ mem)⟩

end NetLabs.Router
