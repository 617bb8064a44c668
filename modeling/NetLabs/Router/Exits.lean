/-
NetLabs.Router.Exits — the ways out of `process_ip_packet` and the buffer it
leaves.

`process_ip_packet` edits the lent buffer while it looks at it: both checksums
are cleared and recomputed, and put back where they turn out wrong; TTL and
checksum change when the packet is forwarded. `processIpPacketInPlace` is the
function with these edits, and with the exit it takes.

`ipExit` is the exit as the packet alone decides it, without an edit. The two
agree (`processIpPacketInPlace_eq`): a recomputed checksum that passes is the
one that was there.
-/
import NetLabs.Router.HeaderChecksum

namespace NetLabs.Router

open NetLabs.Lib

variable {env : Env}

/-! ## The function with its edits -/

/-- The ways out of `process_ip_packet`, in the order of the source. -/
inductive IpExit where
  | tooShort
  | badHeaderSum
  | icmpTooShort
  | badIcmpSum
  | notEchoRequest
  | echoReply (destIntf : SrIf)
  | portUnreachable (destIntf : SrIf)
  | timeExceeded
  | netUnreachable
  | queued (nextHop : SrRt)
  | forwarded (nextHop : SrRt) (mac : Mac)
  deriving DecidableEq, Repr

/-- What `process_ip_packet` leaves: the router, the lent buffer, and the exit
it took. -/
structure IpReturn where
  sr : Sr
  exit : IpExit
  packet : List UInt8

/-- `icmp_sum` set to 0 and to the checksum of what follows the IP header. -/
def recomputeIcmpSum (env : Env) (packet : List UInt8) : List UInt8 :=
  let packet := icmpSum.set (memU16 env.endian 0) packet
  icmpSum.set (memU16 env.endian (cksum env.endian
    (slice packet icmpHdr.off (packet.length - etherHdrSize - ipHdrSize)))) packet

/-- The part of `process_ip_packet` for a packet to the router itself, with
the buffer it leaves. -/
def Sr.processLocalInPlace (env : Env) (sr : Sr) (packet : List UInt8) (interface : IfName)
    (destIntf : SrIf) : Option IpReturn :=
  if env.getU8 ipP packet = ipProtocolIcmp then
    if icmpHdrSize + etherHdrSize + ipHdrSize > packet.length then
      some ⟨sr, .icmpTooShort, packet⟩
    else
      let originalChksum := env.getSum icmpSum packet
      let packet := recomputeIcmpSum env packet
      if env.getSum icmpSum packet ≠ originalChksum then
        some ⟨sr, .badIcmpSum, icmpSum.set (memU16 env.endian originalChksum) packet⟩
      else if env.getU8 icmpType packet ≠ 8 then some ⟨sr, .notEchoRequest, packet⟩
      else
        (sr.sendFabricatedIcmpPacket env .icmp packet interface 0 0 (some destIntf)).map
          fun sr => ⟨sr, .echoReply destIntf, packet⟩
  else
    (sr.sendFabricatedIcmpPacket env .icmp packet interface 3 3 (some destIntf)).map
      fun sr => ⟨sr, .portUnreachable destIntf, packet⟩

/-- The part for a packet to forward. -/
def Sr.forwardPacketInPlace (env : Env) (sr : Sr) (packet : List UInt8) (nextHop : SrRt) :
    Option IpReturn :=
  let packet := recomputeIpSum env (ipTtl.set [env.getU8 ipTtl packet - 1] packet)
  match sr.cache.srArpcacheLookup nextHop.gw with
  | none =>
      let (sr, request) := sr.enqueue nextHop.gw packet nextHop.interface
      (sr.processArpreq env request).map fun sr => ⟨sr, .queued nextHop, packet⟩
  | some nextHopMac =>
      match sr.srGetInterface nextHop.interface with
      | none => none
      | some intf =>
          let packet := etherDhost.set nextHopMac.mac.bytes packet
          let packet := etherShost.set intf.addr.bytes packet
          some ⟨sr.srSendPacket .forward packet intf.name, .forwarded nextHop nextHopMac.mac,
            packet⟩

/-- `process_ip_packet(sr, packet, len, interface)` with the buffer it
leaves. -/
def Sr.processIpPacketInPlace (env : Env) (sr : Sr) (packet : List UInt8) (interface : IfName) :
    Option IpReturn :=
  if ipHdrSize + etherHdrSize > packet.length then some ⟨sr, .tooShort, packet⟩
  else
    let originalChksum := env.getSum ipSum packet
    let packet := recomputeIpSum env packet
    if env.getSum ipSum packet ≠ originalChksum then
      some ⟨sr, .badHeaderSum, ipSum.set (memU16 env.endian originalChksum) packet⟩
    else
      match sr.getInterfaceFromIp (env.getU32 ipDst packet) with
      | some destIntf => sr.processLocalInPlace env packet interface destIntf
      | none =>
          if 1 ≥ env.getU8 ipTtl packet then
            (sr.sendFabricatedIcmpPacket env .icmp packet interface 11 0 none).map
              fun sr => ⟨sr, .timeExceeded, packet⟩
          else
            match bestMatchLoop env (env.getU32 ipDst packet) none sr.routingTable with
            | none =>
                (sr.sendFabricatedIcmpPacket env .icmp packet interface 3 0 none).map
                  fun sr => ⟨sr, .netUnreachable, packet⟩
            | some nextHop => sr.forwardPacketInPlace env packet nextHop

/-! ## The buffer and the exit do not matter to the router -/

theorem processLocalInPlace_sr (sr : Sr) (packet : List UInt8) (interface : IfName)
    (destIntf : SrIf) :
    (sr.processLocalInPlace env packet interface destIntf).map IpReturn.sr =
      sr.processLocal env packet interface destIntf := by
  unfold Sr.processLocalInPlace Sr.processLocal recomputeIcmpSum
  split
  · split
    · rfl
    · dsimp only
      split
      · rfl
      · split
        · rfl
        · simp [Option.map_map, Function.comp_def]
  · simp [Option.map_map, Function.comp_def]

theorem forwardPacketInPlace_sr (sr : Sr) (packet : List UInt8) (nextHop : SrRt) :
    (sr.forwardPacketInPlace env packet nextHop).map IpReturn.sr =
      sr.forwardPacket env packet nextHop := by
  unfold Sr.forwardPacketInPlace Sr.forwardPacket
  dsimp only
  cases sr.cache.srArpcacheLookup nextHop.gw with
  | none => simp [Option.map_map, Function.comp_def]
  | some nextHopMac =>
    dsimp only
    cases sr.srGetInterface nextHop.interface with
    | none => rfl
    | some intf => rfl

/-- The function with its edits does to the router what `process_ip_packet`
does. -/
theorem processIpPacketInPlace_sr (sr : Sr) (packet : List UInt8) (interface : IfName) :
    (sr.processIpPacketInPlace env packet interface).map IpReturn.sr =
      sr.processIpPacket env packet interface := by
  unfold Sr.processIpPacketInPlace Sr.processIpPacket
  split
  · rfl
  dsimp only
  split
  · rfl
  cases sr.getInterfaceFromIp (env.getU32 ipDst (recomputeIpSum env packet)) with
  | some destIntf => exact processLocalInPlace_sr sr _ interface destIntf
  | none =>
    dsimp only
    split
    · simp [Option.map_map, Function.comp_def]
    cases bestMatchLoop env (env.getU32 ipDst (recomputeIpSum env packet)) none
        sr.routingTable with
    | none => simp [Option.map_map, Function.comp_def]
    | some nextHop => exact forwardPacketInPlace_sr sr _ nextHop

/-! ## The exit as the packet decides it -/

/-- A checksum field that is overwritten and put back. -/
theorem Field.set_back {f : Field} {bs packet : List UInt8} (size : f.size = 2)
    (hbs : bs.length = 2) (fits : f.off + f.size ≤ packet.length) :
    f.set (memU16 env.endian (env.getSum f packet)) (f.set bs packet) = packet := by
  rw [Field.set_set f packet (by rw [length_memU16, hbs]), Env.getSum,
    memU16_ofMem16 env.endian (by rw [Env.length_get, size]), Field.set_get env fits]

/-- The packet passes the ICMP comparison `process_ip_packet` makes. -/
def PassesIcmpSum (env : Env) (packet : List UInt8) : Prop :=
  env.getSum icmpSum (recomputeIcmpSum env packet) = env.getSum icmpSum packet

instance (env : Env) (packet : List UInt8) : Decidable (PassesIcmpSum env packet) :=
  inferInstanceAs (Decidable (_ = _))

theorem exists_recomputeIcmpSum (env : Env) (packet : List UInt8) :
    ∃ sum, recomputeIcmpSum env packet = icmpSum.set (memU16 env.endian sum) packet :=
  ⟨_, Field.set_set icmpSum packet (by rw [length_memU16, length_memU16])⟩

/-- A packet that passes is its own recomputation. -/
theorem recomputeIcmpSum_of_passes {packet : List UInt8}
    (long : icmpHdrSize + etherHdrSize + ipHdrSize ≤ packet.length)
    (passes : PassesIcmpSum env packet) : recomputeIcmpSum env packet = packet := by
  have fits : icmpSum.off + icmpSum.size ≤ packet.length := le_trans (by decide) long
  obtain ⟨sum, eq⟩ := exists_recomputeIcmpSum env packet
  have held : env.getSum icmpSum packet = sum := by
    rw [← passes, eq, Env.getSum, Env.get_set ⟨length_memU16 _ _, fits⟩, ofMem16_memU16]
  rw [eq, ← held, Env.getSum, memU16_ofMem16 env.endian (Env.length_get env icmpSum packet),
    Field.set_get env fits]

/-- The exit for a packet to the router itself. -/
def localExit (env : Env) (packet : List UInt8) (destIntf : SrIf) : IpExit :=
  if env.getU8 ipP packet = ipProtocolIcmp then
    if icmpHdrSize + etherHdrSize + ipHdrSize > packet.length then .icmpTooShort
    else if ¬ PassesIcmpSum env packet then .badIcmpSum
    else if env.getU8 icmpType packet ≠ 8 then .notEchoRequest
    else .echoReply destIntf
  else .portUnreachable destIntf

/-- The exit `process_ip_packet` takes. -/
def Sr.ipExit (env : Env) (sr : Sr) (packet : List UInt8) : IpExit :=
  if ipHdrSize + etherHdrSize > packet.length then .tooShort
  else if ¬ PassesSum env packet then .badHeaderSum
  else
    match sr.getInterfaceFromIp (env.getU32 ipDst packet) with
    | some destIntf => localExit env packet destIntf
    | none =>
        if 1 ≥ env.getU8 ipTtl packet then .timeExceeded
        else
          match bestMatchLoop env (env.getU32 ipDst packet) none sr.routingTable with
          | none => .netUnreachable
          | some nextHop =>
              match sr.cache.srArpcacheLookup nextHop.gw with
              | none => .queued nextHop
              | some entry => .forwarded nextHop entry.mac

/-- When `process_ip_packet` takes an exit. -/
inductive Sr.TakesExit (env : Env) (sr : Sr) (packet : List UInt8) : IpExit → Prop where
  | tooShort (short : packet.length < ipHdrSize + etherHdrSize) : TakesExit env sr packet .tooShort
  | badHeaderSum (long : ipHdrSize + etherHdrSize ≤ packet.length)
      (fails : ¬ PassesSum env packet) : TakesExit env sr packet .badHeaderSum
  | icmpTooShort (long : ipHdrSize + etherHdrSize ≤ packet.length)
      (short : packet.length < icmpHdrSize + etherHdrSize + ipHdrSize) :
      TakesExit env sr packet .icmpTooShort
  | badIcmpSum (long : icmpHdrSize + etherHdrSize + ipHdrSize ≤ packet.length) :
      TakesExit env sr packet .badIcmpSum
  | notEchoRequest (long : icmpHdrSize + etherHdrSize + ipHdrSize ≤ packet.length) :
      TakesExit env sr packet .notEchoRequest
  | echoReply {destIntf : SrIf} (passes : PassesSum env packet)
      (mine : sr.getInterfaceFromIp (env.getU32 ipDst packet) = some destIntf)
      (icmp : env.getU8 ipP packet = ipProtocolIcmp)
      (long : icmpHdrSize + etherHdrSize + ipHdrSize ≤ packet.length)
      (passesIcmp : PassesIcmpSum env packet) (type : env.getU8 icmpType packet = 8) :
      TakesExit env sr packet (.echoReply destIntf)
  | portUnreachable {destIntf : SrIf} (long : ipHdrSize + etherHdrSize ≤ packet.length)
      (mine : sr.getInterfaceFromIp (env.getU32 ipDst packet) = some destIntf) :
      TakesExit env sr packet (.portUnreachable destIntf)
  | timeExceeded (long : ipHdrSize + etherHdrSize ≤ packet.length)
      (expired : 1 ≥ env.getU8 ipTtl packet) : TakesExit env sr packet .timeExceeded
  | netUnreachable (long : ipHdrSize + etherHdrSize ≤ packet.length) :
      TakesExit env sr packet .netUnreachable
  | queued {nextHop : SrRt} (long : ipHdrSize + etherHdrSize ≤ packet.length)
      (alive : ¬ 1 ≥ env.getU8 ipTtl packet)
      (route : bestMatchLoop env (env.getU32 ipDst packet) none sr.routingTable = some nextHop)
      (unknown : sr.cache.srArpcacheLookup nextHop.gw = none) :
      TakesExit env sr packet (.queued nextHop)
  | forwarded {nextHop : SrRt} {entry : ArpEntry}
      (long : ipHdrSize + etherHdrSize ≤ packet.length) (alive : ¬ 1 ≥ env.getU8 ipTtl packet)
      (known : sr.cache.srArpcacheLookup nextHop.gw = some entry) :
      TakesExit env sr packet (.forwarded nextHop entry.mac)

theorem takesExit_local {sr : Sr} {packet : List UInt8} {destIntf : SrIf}
    (long : ipHdrSize + etherHdrSize ≤ packet.length) (passes : PassesSum env packet)
    (mine : sr.getInterfaceFromIp (env.getU32 ipDst packet) = some destIntf) :
    sr.TakesExit env packet (localExit env packet destIntf) := by
  unfold localExit
  split
  · rename_i icmp
    split
    · exact .icmpTooShort long (by omega)
    · rename_i short
      have whole : icmpHdrSize + etherHdrSize + ipHdrSize ≤ packet.length := by omega
      split
      · exact .badIcmpSum whole
      · rename_i passesIcmp
        split
        · exact .notEchoRequest whole
        · rename_i type
          exact .echoReply passes mine icmp whole (not_not.mp passesIcmp) (not_not.mp type)
  · exact .portUnreachable long mine

theorem takesExit_ipExit (env : Env) (sr : Sr) (packet : List UInt8) :
    sr.TakesExit env packet (sr.ipExit env packet) := by
  unfold Sr.ipExit
  split
  · exact .tooShort (by omega)
  rename_i short
  have long : ipHdrSize + etherHdrSize ≤ packet.length := by omega
  split
  · rename_i fails
    exact .badHeaderSum long fails
  rename_i passes
  cases mine : sr.getInterfaceFromIp (env.getU32 ipDst packet) with
  | some destIntf => exact takesExit_local long (not_not.mp passes) mine
  | none =>
    dsimp only
    split
    · rename_i expired
      exact .timeExceeded long expired
    rename_i alive
    cases route : bestMatchLoop env (env.getU32 ipDst packet) none sr.routingTable with
    | none => exact .netUnreachable long
    | some nextHop =>
      dsimp only
      cases known : sr.cache.srArpcacheLookup nextHop.gw with
      | none => exact .queued long alive route known
      | some entry => exact .forwarded long alive known

/-- Type, code and `dest_intf` of the ICMP message sent at an exit. -/
def IpExit.message? : IpExit → Option (UInt8 × UInt8 × Option SrIf)
  | .echoReply destIntf => some (0, 0, some destIntf)
  | .portUnreachable destIntf => some (3, 3, some destIntf)
  | .timeExceeded => some (11, 0, none)
  | .netUnreachable => some (3, 0, none)
  | _ => none

/-- The ICMP message of an exit, if it has one, about `packet`. -/
def Sr.answer (env : Env) (sr : Sr) (packet : List UInt8) (interface : IfName) :
    Option (UInt8 × UInt8 × Option SrIf) → Option Sr
  | none => some sr
  | some (type, code, destIntf) =>
      sr.sendFabricatedIcmpPacket env .icmp packet interface type code destIntf

/-- What leaving by an exit does to the router and to the buffer. -/
def Sr.leaveBy (env : Env) (sr : Sr) (packet : List UInt8) (interface : IfName) :
    IpExit → Option (Sr × List UInt8)
  | .queued nextHop =>
      let waiting := sr.enqueue nextHop.gw (rewritten env packet) nextHop.interface
      (waiting.1.processArpreq env waiting.2).map fun sr => (sr, rewritten env packet)
  | .forwarded nextHop mac =>
      (sr.srGetInterface nextHop.interface).map fun intf =>
        let frame := outFrame mac intf (rewritten env packet)
        (sr.srSendPacket .forward frame intf.name, frame)
  | exit => (sr.answer env packet interface exit.message?).map fun sr => (sr, packet)

/-- Leaving by an exit at which the packet is neither queued nor forwarded. -/
theorem answer_of_leaveBy {sr sr' : Sr} {packet buf : List UInt8} {interface : IfName}
    {exit : IpExit}
    (plain : sr.leaveBy env packet interface exit =
      (sr.answer env packet interface exit.message?).map fun sr => (sr, packet))
    (h : sr.leaveBy env packet interface exit = some (sr', buf)) :
    sr.answer env packet interface exit.message? = some sr' ∧ buf = packet := by
  obtain ⟨sr₁, answered, eq⟩ := Option.map_eq_some_iff.mp (plain ▸ h)
  obtain ⟨rfl, rfl⟩ := Prod.mk.inj eq
  exact ⟨answered, rfl⟩

/-- The packet leaves by `exit`. -/
def Sr.left (env : Env) (sr : Sr) (packet : List UInt8) (interface : IfName) (exit : IpExit) :
    Option IpReturn :=
  (sr.leaveBy env packet interface exit).map fun (sr, packet) => ⟨sr, exit, packet⟩

theorem processLocalInPlace_eq (sr : Sr) (packet : List UInt8) (interface : IfName)
    (destIntf : SrIf) :
    sr.processLocalInPlace env packet interface destIntf =
      sr.left env packet interface (localExit env packet destIntf) := by
  unfold Sr.processLocalInPlace localExit
  split
  · split
    · rfl
    · rename_i short
      have long : icmpHdrSize + etherHdrSize + ipHdrSize ≤ packet.length := by omega
      dsimp only
      by_cases passes : PassesIcmpSum env packet
      · have same : env.getSum icmpSum (recomputeIcmpSum env packet) =
            env.getSum icmpSum packet := passes
        rw [if_neg (not_not_intro same), if_neg (not_not_intro passes),
          recomputeIcmpSum_of_passes long passes]
        split
        · rfl
        · simp [Sr.left, Sr.leaveBy, Sr.answer, IpExit.message?, Option.map_map, Function.comp_def]
      · obtain ⟨sum, eq⟩ := exists_recomputeIcmpSum env packet
        have differ : env.getSum icmpSum (recomputeIcmpSum env packet) ≠
            env.getSum icmpSum packet := passes
        rw [if_pos differ, if_pos passes, eq,
          Field.set_back rfl (length_memU16 _ _) (le_trans (by decide) long)]
        rfl
  · simp [Sr.left, Sr.leaveBy, Sr.answer, IpExit.message?, Option.map_map, Function.comp_def]

theorem forwardPacketInPlace_eq (sr : Sr) {packet : List UInt8} (interface : IfName)
    (nextHop : SrRt) (long : ipHdrSize + etherHdrSize ≤ packet.length) :
    sr.forwardPacketInPlace env packet nextHop =
      sr.left env packet interface
        (match sr.cache.srArpcacheLookup nextHop.gw with
          | none => .queued nextHop
          | some entry => .forwarded nextHop entry.mac) := by
  have long' : etherHdrSize ≤ (rewritten env packet).length := by
    rw [length_rewritten]
    exact le_trans (by decide) long
  unfold Sr.forwardPacketInPlace
  dsimp only
  rw [show recomputeIpSum env (ipTtl.set [env.getU8 ipTtl packet - 1] packet) =
    rewritten env packet from rfl]
  cases sr.cache.srArpcacheLookup nextHop.gw with
  | none => simp [Sr.left, Sr.leaveBy, Option.map_map, Function.comp_def]
  | some entry =>
    dsimp only [Sr.left, Sr.leaveBy]
    cases sr.srGetInterface nextHop.interface with
    | none => rfl
    | some intf =>
      dsimp only
      rw [forwardFrame_eq entry.mac intf long']
      rfl

/-- What `process_ip_packet` does is decided by its exit, and the exit by the
packet as it arrived. -/
theorem processIpPacketInPlace_eq (sr : Sr) (packet : List UInt8) (interface : IfName) :
    sr.processIpPacketInPlace env packet interface =
      sr.left env packet interface (sr.ipExit env packet) := by
  unfold Sr.processIpPacketInPlace Sr.ipExit
  split
  · rfl
  rename_i short
  have long : ipHdrSize + etherHdrSize ≤ packet.length := by omega
  dsimp only
  by_cases passes : PassesSum env packet
  · have same : env.getSum ipSum (recomputeIpSum env packet) = env.getSum ipSum packet := passes
    rw [if_neg (not_not_intro same), if_neg (not_not_intro passes),
      recomputeIpSum_of_valid long passes]
    cases sr.getInterfaceFromIp (env.getU32 ipDst packet) with
    | some destIntf => exact processLocalInPlace_eq sr packet interface destIntf
    | none =>
      dsimp only
      split
      · simp [Sr.left, Sr.leaveBy, Sr.answer, IpExit.message?, Option.map_map, Function.comp_def]
      cases bestMatchLoop env (env.getU32 ipDst packet) none sr.routingTable with
      | none =>
        simp [Sr.left, Sr.leaveBy, Sr.answer, IpExit.message?, Option.map_map, Function.comp_def]
      | some nextHop => exact forwardPacketInPlace_eq sr interface nextHop long
  · have differ : env.getSum ipSum (recomputeIpSum env packet) ≠ env.getSum ipSum packet :=
      passes
    rw [if_pos differ, if_pos passes, recomputeIpSum_eq,
      Field.set_back rfl (length_memU16 _ _) (le_trans (by decide) long)]
    rfl

/-- The exit of a packet tells what is done to the router. -/
theorem processIpPacket_leaveBy (sr : Sr) (packet : List UInt8) (interface : IfName) :
    sr.processIpPacket env packet interface =
      (sr.leaveBy env packet interface (sr.ipExit env packet)).map Prod.fst := by
  rw [← processIpPacketInPlace_sr, processIpPacketInPlace_eq, Sr.left, Option.map_map]
  rfl

/-! ## Headers that are dropped -/

/-- `process_ip_packet` drops the packet for the checksum of its header. -/
def Sr.DropsForSum (env : Env) (sr : Sr) (packet : List UInt8) (interface : IfName) : Prop :=
  ∃ r, sr.processIpPacketInPlace env packet interface = some r ∧ r.exit = .badHeaderSum

theorem ipExit_eq_badHeaderSum_iff (sr : Sr) {packet : List UInt8}
    (long : ipHdrSize + etherHdrSize ≤ packet.length) :
    sr.ipExit env packet = .badHeaderSum ↔ ¬ PassesSum env packet := by
  constructor
  · intro exit
    have taken := takesExit_ipExit env sr packet
    rw [exit] at taken
    cases taken with
    | badHeaderSum _ fails => exact fails
  · intro fails
    rw [Sr.ipExit, if_neg (by omega), if_pos fails]

theorem dropsForSum_iff (sr : Sr) {packet : List UInt8} (interface : IfName)
    (long : ipHdrSize + etherHdrSize ≤ packet.length) :
    sr.DropsForSum env packet interface ↔ ¬ PassesSum env packet := by
  rw [← ipExit_eq_badHeaderSum_iff sr long, Sr.DropsForSum, processIpPacketInPlace_eq]
  constructor
  · rintro ⟨r, left, exit⟩
    obtain ⟨⟨sr', buf⟩, -, rfl⟩ := Option.map_eq_some_iff.mp left
    exact exit
  · intro exit
    rw [exit]
    exact ⟨⟨sr, .badHeaderSum, packet⟩, rfl, rfl⟩

/-- **The header check is exact but for one spelling of zero.** A packet is
dropped for the checksum of its header exactly if the header is not valid,
unless the header is valid with 0 in its checksum field. -/
theorem dropsForSum_exact_iff (sr : Sr) {packet : List UInt8} (interface : IfName)
    (long : ipHdrSize + etherHdrSize ≤ packet.length) :
    (sr.DropsForSum env packet interface ↔ headerSum env packet ≠ 0xffff) ↔
      ¬ (headerSum env packet = 0xffff ∧ env.getU16 ipSum packet = 0) := by
  rw [dropsForSum_iff sr interface long, passesSum_iff long]
  constructor
  · rintro agrees ⟨valid, zero⟩
    exact agrees.mp (fun passes => passes.2 zero) valid
  · intro spelled
    constructor
    · intro dropped valid
      exact dropped ⟨valid, fun zero => spelled ⟨valid, zero⟩⟩
    · intro invalid passes
      exact invalid passes.1

theorem dropsForSum_exact_udp :
    (twoPorts.DropsForSum .counting (udpFrame (.local 1) 1) eth0 ↔
        headerSum .counting (udpFrame (.local 1) 1) ≠ 0xffff) ↔
      ¬ (headerSum .counting (udpFrame (.local 1) 1) = 0xffff ∧
        Env.counting.getU16 ipSum (udpFrame (.local 1) 1) = 0) :=
  dropsForSum_exact_iff twoPorts eth0 (by decide)

/-- A UDP packet from 10.0.0.9 to 10.9.0.1, with an identification for which
the header adds up without a checksum. -/
def zeroSumFrame : List UInt8 :=
  (Mac.local 1).bytes ++ (Mac.local 9).bytes ++ be16 ethertypeIp ++
    [0x45, 0, 0, 20, 0x66, 0xc7, 0, 0, 64, 17, 0, 0] ++ be32 0x0a000009 ++ [10, 9, 0, 1]

/-- A valid header of 20 bytes is dropped. -/
theorem valid_header_is_dropped :
    ¬ ∀ (sr : Sr) (packet : List UInt8) (interface : IfName),
      ipHdrSize + etherHdrSize ≤ packet.length → Env.counting.getU8 ipHdr packet % 16 = 5 →
      (sr.DropsForSum .counting packet interface ↔ headerSum .counting packet ≠ 0xffff) := by
  intro general
  have h := general twoPorts zeroSumFrame eth0 (by decide) (by decide)
  rw [dropsForSum_iff twoPorts eth0 (by decide)] at h
  revert h
  decide +kernel

end NetLabs.Router
