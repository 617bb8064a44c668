/-
NetLabs.Router.Checked — the functions that handle a frame, with every access
checked.

An access to the frame, to a copy of it in the queue or to a packet the router
generates is checked against the length of the buffer. A NULL dereference ends
the process, as an assertion does. The functions are those of `Forwarding`,
step by step.
-/
import NetLabs.Lib.Access
import NetLabs.Router.IcmpMessages

namespace NetLabs.Router

open NetLabs.Lib

/-! ## Accesses to a frame -/

/-- A field is read. -/
def Field.checked (f : Field) (buf : List UInt8) : Lib.Access Unit :=
  Lib.Access.inside buf f.off f.size

/-- The bytes of a field. -/
def Env.read (env : Env) (f : Field) (buf : List UInt8) : Lib.Access (List UInt8) := do
  f.checked buf
  return env.get f buf

/-- The buffer with a field overwritten. -/
def Field.write (f : Field) (bs buf : List UInt8) : Lib.Access (List UInt8) := do
  Lib.Access.inside buf f.off bs.length
  return f.set bs buf

/-! ## ICMP messages -/

/-- The payload of the message `send_fabricated_icmp_packet` builds. -/
def icmpPayloadChecked (env : Env) (packet : List UInt8) (type : UInt8) :
    Lib.Access (List UInt8) := do
  let sendingLength := sendingLength packet type
  let icmp := List.replicate sendingLength (0 : UInt8)
  let size := sendingLength - etherHdrSize - ipHdrSize
  if type = 0 then
    Lib.Access.inside icmp icmpHdr.off size
    return put icmp icmpHdr.off (slice icmp icmpHdr.off size)
  else
    Lib.Access.inside packet ipHdr.off icmpDataSize
    icmpData.write (peek env.beyond packet ipHdr.off icmpDataSize) icmp

/-- The checksum of an ICMP message, as it is computed first. -/
def icmpSumChecked (env : Env) (packet icmp : List UInt8) (type : UInt8) :
    Lib.Access UInt16 := do
  if type = 0 then
    Lib.Access.inside icmp icmpHdr.off (packet.length - etherHdrSize - ipHdrSize)
    return cksum env.endian
      (peek env.beyond icmp icmpHdr.off (packet.length - etherHdrSize - ipHdrSize))
  else
    return cksum env.endian (← env.read icmpHdr icmp)

/-- The buffer with the ICMP header written. -/
def icmpBufferChecked (env : Env) (packet : List UInt8) (type code : UInt8) :
    Lib.Access (List UInt8) := do
  let icmp ← icmpPayloadChecked env packet type
  let icmp ← icmpSum.write (memU16 env.endian (← icmpSumChecked env packet icmp type)) icmp
  let icmp ← icmpType.write [type] icmp
  let icmp ← icmpCode.write [code] icmp
  icmpSum.write (memU16 env.endian 0) icmp

/-- The buffer with the IP header written on top of `icmp`, but for its
checksum. -/
def ipBufferChecked (env : Env) (packet icmp : List UInt8) (length : Nat) (srcIp : UInt32) :
    Lib.Access (List UInt8) := do
  let icmp ← ipHdr.write (← env.read ipHdr packet) icmp
  let icmp ← ipTtl.write [initTtl] icmp
  let icmp ← ipP.write [ipProtocolIcmp] icmp
  let icmp ← ipLen.write (be16 (UInt16.ofNat (length - etherHdrSize))) icmp
  let icmp ← ipSrc.write (be32 srcIp) icmp
  ipDst.write (← env.read ipSrc packet) icmp

/-- `ip_sum` set to 0 and to the checksum of the header. -/
def recomputeIpSumChecked (env : Env) (packet : List UInt8) : Lib.Access (List UInt8) := do
  let packet ← ipSum.write (memU16 env.endian 0) packet
  ipSum.write (memU16 env.endian (cksum env.endian (← env.read ipHdr packet))) packet

/-- The frame `send_fabricated_icmp_packet` builds. -/
def fabricatedIcmpChecked (env : Env) (packet : List UInt8) (type code : UInt8)
    (outgoingInterface : SrIf) (destIntf : Option SrIf) : Lib.Access (List UInt8) := do
  let icmp ← icmpBufferChecked env packet type code
  let icmp ← ipBufferChecked env packet icmp (sendingLength packet type)
    (messageSource outgoingInterface destIntf)
  let icmp ← recomputeIpSumChecked env icmp
  let icmp ← etherDhost.write (← env.read etherShost packet) icmp
  let icmp ← etherShost.write outgoingInterface.addr.bytes icmp
  etherType.write (be16 ethertypeIp) icmp

/-- `send_fabricated_icmp_packet`. -/
def Sr.sendFabricatedIcmpPacketChecked (env : Env) (sr : Sr) (cause : Cause)
    (packet : List UInt8) (gotOnIntf : IfName) (type code : UInt8) (destIntf : Option SrIf) :
    Lib.Access Sr := do
  let outgoingInterface ← Lib.Access.deref (sr.srGetInterface gotOnIntf)
  let frame ← fabricatedIcmpChecked env packet type code outgoingInterface destIntf
  return sr.srSendPacket cause frame gotOnIntf

/-! ## ARP requests -/

/-- The ARP request `process_arpreq` broadcasts. -/
def arpRequestFrameChecked (intf : SrIf) (ip : UInt32) : Lib.Access (List UInt8) := do
  let frame := List.replicate (etherHdrSize + arpHdrSize) (0 : UInt8)
  let frame ← arOp.write (be16 arpOpRequest) frame
  let frame ← arTha.write (List.replicate etherAddrLen 0xff) frame
  let frame ← arTip.write (be32 ip) frame
  let frame ← arPro.write (be16 ethertypeIp) frame
  let frame ← arHln.write [UInt8.ofNat etherAddrLen] frame
  let frame ← arSip.write (be32 intf.ip) frame
  let frame ← arSha.write intf.addr.bytes frame
  let frame ← arPln.write [4] frame
  let frame ← arHrd.write (be16 arpHrdEthernet) frame
  let frame ← etherDhost.write (List.replicate etherAddrLen 0xff) frame
  let frame ← etherType.write (be16 ethertypeArp) frame
  etherShost.write intf.addr.bytes frame

/-- The loop of `process_arpreq` over the packets of a request it gives up. -/
def Sr.unreachableLoopChecked (env : Env) (request : Nat) : List SrPacket → Sr → Lib.Access Sr
  | [], sr => return sr
  | packet :: rest, sr => do
      etherDhost.checked packet.buf
      match sr.getInterfaceFromEth (env.getMac etherDhost.off packet.buf) with
      | none => unreachableLoopChecked env request rest (sr.log (.unmatched request packet))
      | some sendingIntf =>
          unreachableLoopChecked env request rest
            (← sr.sendFabricatedIcmpPacketChecked env (.unreachable request packet) packet.buf
              sendingIntf.name 3 1 none)

/-- `process_arpreq(sr, request)`. -/
def Sr.processArpreqChecked (env : Env) (sr : Sr) (request : Nat) : Lib.Access Sr := do
  let req ← Lib.Access.deref (sr.cache.deref request)
  let now := env.time sr.ticks
  let sent := env.time (sr.ticks + 1)
  let sr := { sr with ticks := sr.ticks + 2 }
  if now - req.sent ≥ 1 then
    if req.timesSent < 5 then
      let packet ← Lib.Access.deref req.packets.head?
      let intf ← Lib.Access.deref (sr.srGetInterface packet.iface)
      let frame ← arpRequestFrameChecked intf req.ip
      let cache := sr.cache.updateReq request fun r =>
        { r with timesSent := r.timesSent + 1, sent }
      return { sr with cache }.srSendPacket (.arpRequest request sent) frame intf.name
    else
      let sr ← sr.unreachableLoopChecked env request req.packets
      return { sr with cache := sr.cache.srArpreqDestroy request }.log (.gaveUp request now)
  else return sr

/-- The loop of `sr_arpcache_sweepreqs`. -/
def Sr.sweepLoopChecked (env : Env) : Nat → Option Nat → Sr → Lib.Access Sr
  | _, none, sr => return sr
  | 0, some _, _ => .error .abort
  | fuel + 1, some request, sr => do
      let nextRequest := ArpCache.next request sr.cache.requests
      sweepLoopChecked env fuel nextRequest
        (← (sr.log (.visited request)).processArpreqChecked env request)

/-- One turn of the loop of `sr_arpcache_timeout`. -/
def Sr.srArpcacheTimeoutChecked (env : Env) (sr : Sr) : Lib.Access Sr :=
  let sr := { sr with cache := sr.cache.expire (env.time sr.ticks), ticks := sr.ticks + 1 }
  sr.sweepLoopChecked env sr.cache.requests.length (sr.cache.requests.head?.map ArpReq.addr)

/-! ## IP packets -/

/-- `icmp_sum` set to 0 and to the checksum of what follows the IP header. -/
def recomputeIcmpSumChecked (env : Env) (packet : List UInt8) : Lib.Access (List UInt8) := do
  let packet ← icmpSum.write (memU16 env.endian 0) packet
  let size := packet.length - etherHdrSize - ipHdrSize
  Lib.Access.inside packet icmpHdr.off size
  icmpSum.write (memU16 env.endian (cksum env.endian (slice packet icmpHdr.off size))) packet

/-- `process_ip_packet` on a packet for the router itself. -/
def Sr.processLocalChecked (env : Env) (sr : Sr) (packet : List UInt8) (interface : IfName)
    (destIntf : SrIf) : Lib.Access Sr := do
  ipP.checked packet
  if env.getU8 ipP packet = ipProtocolIcmp then
    if icmpHdrSize + etherHdrSize + ipHdrSize > packet.length then return sr
    else
      icmpSum.checked packet
      let originalChksum := env.getSum icmpSum packet
      let packet ← recomputeIcmpSumChecked env packet
      icmpSum.checked packet
      if env.getSum icmpSum packet ≠ originalChksum then
        let _ ← icmpSum.write (memU16 env.endian originalChksum) packet
        return sr
      else
        icmpType.checked packet
        if env.getU8 icmpType packet ≠ 8 then return sr
        else sr.sendFabricatedIcmpPacketChecked env .icmp packet interface 0 0 (some destIntf)
  else sr.sendFabricatedIcmpPacketChecked env .icmp packet interface 3 3 (some destIntf)

/-- `process_ip_packet` on a packet to forward by the route `nextHop`. -/
def Sr.forwardPacketChecked (env : Env) (sr : Sr) (packet : List UInt8) (nextHop : SrRt) :
    Lib.Access Sr := do
  ipTtl.checked packet
  let packet ← ipTtl.write [env.getU8 ipTtl packet - 1] packet
  let packet ← recomputeIpSumChecked env packet
  match sr.cache.srArpcacheLookup nextHop.gw with
  | none =>
      let waiting := sr.enqueue nextHop.gw packet nextHop.interface
      waiting.1.processArpreqChecked env waiting.2
  | some nextHopMac =>
      let packet ← etherDhost.write nextHopMac.mac.bytes packet
      let intf ← Lib.Access.deref (sr.srGetInterface nextHop.interface)
      let packet ← etherShost.write intf.addr.bytes packet
      return sr.srSendPacket .forward packet intf.name

/-- `process_ip_packet(sr, packet, len, interface)`. -/
def Sr.processIpPacketChecked (env : Env) (sr : Sr) (packet : List UInt8) (interface : IfName) :
    Lib.Access Sr := do
  if ipHdrSize + etherHdrSize > packet.length then return sr
  else
    ipSum.checked packet
    let originalChksum := env.getSum ipSum packet
    let packet ← recomputeIpSumChecked env packet
    ipSum.checked packet
    if env.getSum ipSum packet ≠ originalChksum then
      let _ ← ipSum.write (memU16 env.endian originalChksum) packet
      return sr
    else
      ipDst.checked packet
      match sr.getInterfaceFromIp (env.getU32 ipDst packet) with
      | some destIntf => sr.processLocalChecked env packet interface destIntf
      | none =>
          ipTtl.checked packet
          if 1 ≥ env.getU8 ipTtl packet then
            sr.sendFabricatedIcmpPacketChecked env .icmp packet interface 11 0 none
          else
            match bestMatchLoop env (env.getU32 ipDst packet) none sr.routingTable with
            | none => sr.sendFabricatedIcmpPacketChecked env .icmp packet interface 3 0 none
            | some nextHop => sr.forwardPacketChecked env packet nextHop

/-! ## ARP packets -/

/-- The ARP reply to the request in `packet`. -/
def arpReplyFrameChecked (env : Env) (packet : List UInt8) (gotOnIntf : SrIf) :
    Lib.Access (List UInt8) := do
  let reply := List.replicate packet.length (0 : UInt8)
  let reply ← etherDhost.write (← env.read etherShost packet) reply
  let reply ← etherShost.write gotOnIntf.addr.bytes reply
  let reply ← etherType.write (be16 ethertypeArp) reply
  let reply ← arpHdr.write (← env.read arpHdr packet) reply
  let reply ← arOp.write (be16 arpOpReply) reply
  let reply ← arSha.write gotOnIntf.addr.bytes reply
  let reply ← arTha.write (← env.read etherShost packet) reply
  let reply ← arSip.write (be32 gotOnIntf.ip) reply
  arTip.write (← env.read arSip packet) reply

/-- A queued frame as it leaves when its next hop is resolved. -/
def replayFrameChecked (mac : Mac) (gotOnIntf : SrIf) (buf : List UInt8) :
    Lib.Access (List UInt8) := do
  let buf ← etherShost.write gotOnIntf.addr.bytes buf
  etherDhost.write mac.bytes buf

/-- The loop of `process_arp_packet` over the packets of the request it
resolves. -/
def Sr.replayLoopChecked (gotOnIntf : Option SrIf) (interface : IfName) (ip : UInt32)
    (mac : Mac) : List SrPacket → Sr → Lib.Access Sr
  | [], sr => return sr
  | packet :: rest, sr => do
      let intf ← Lib.Access.deref gotOnIntf
      let frame ← replayFrameChecked mac intf packet.buf
      replayLoopChecked gotOnIntf interface ip mac rest
        (sr.srSendPacket (.replay packet ip mac) frame interface)

/-- `process_arp_packet(sr, packet, len, interface)`. -/
def Sr.processArpPacketChecked (env : Env) (sr : Sr) (packet : List UInt8)
    (interface : IfName) : Lib.Access Sr := do
  if arpHdrSize + etherHdrSize > packet.length then return sr
  else
    let gotOnIntf := sr.srGetInterface interface
    arOp.checked packet
    if env.getU16 arOp packet = arpOpRequest then
      arTip.checked packet
      let intf ← Lib.Access.deref gotOnIntf
      if env.getU32 arTip packet ≠ intf.ip then return sr
      else
        let reply ← arpReplyFrameChecked env packet intf
        return sr.srSendPacket .arpReply reply interface
    else if env.getU16 arOp packet = arpOpReply then
      arSha.checked packet
      arSip.checked packet
      let mac := env.getMac arSha.off packet
      let ip := env.getU32 arSip packet
      let (cache, cachedArpRequest) := sr.cache.srArpcacheInsert mac ip (env.time sr.ticks)
      let sr := { sr with cache, ticks := sr.ticks + 1 }
      match cachedArpRequest with
      | none => return sr
      | some req =>
          let sr ← sr.replayLoopChecked gotOnIntf interface ip mac req.packets
          return { sr with cache := sr.cache.srArpreqDestroy req.addr }
    else return sr

/-! ## The router -/

/-- `sr_handlepacket(sr, packet, len, interface)`. -/
def Sr.srHandlepacketChecked (env : Env) (sr : Sr) (packet : List UInt8) (interface : IfName) :
    Lib.Access Sr := do
  etherType.checked packet
  if ethertype env packet = ethertypeArp then sr.processArpPacketChecked env packet interface
  else if ethertype env packet = ethertypeIp then
    sr.processIpPacketChecked env packet interface
  else return sr

def Sr.applyChecked (env : Env) (sr : Sr) : Op → Lib.Access Sr
  | .frame packet interface => sr.srHandlepacketChecked env packet interface
  | .timeout => sr.srArpcacheTimeoutChecked env

/-- Handling the operation leaves a buffer. -/
def Sr.LeavesBuffer (env : Env) (sr : Sr) (op : Op) : Prop :=
  sr.applyChecked env op = .error .outOfBounds

instance (env : Env) (sr : Sr) (op : Op) : Decidable (sr.LeavesBuffer env op) :=
  Lib.Access.decidableLeaves (sr.applyChecked env op)

end NetLabs.Router
