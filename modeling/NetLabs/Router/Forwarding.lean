/-
NetLabs.Router.Forwarding — what the router does with a frame and once a
second: `sr_router.c`, the ARP request logic of `sr_arpcache.c`, and the parts
of `sr_if.c` and `sr_vns_comm.c` they use.

A function returns `none` where the source dereferences NULL. A frame is
handled as a whole and so is a turn of the timeout thread; `write` succeeds.

A field of a frame is read and written where the packed structs of
`sr_protocol.h` put it. A read may run over the end of the frame: the code
copies `ICMP_DATA_SIZE` bytes from the IP header into an error message,
however long the frame is.
-/
import NetLabs.Router.Arpcache

namespace NetLabs.Router

open NetLabs.Lib

/-! ## Fields of a frame -/

/-- The offset and the size of a field. -/
structure Field where
  off : Nat
  size : Nat

-- `struct sr_ethernet_hdr`
abbrev etherDhost : Field := ⟨0, etherAddrLen⟩
abbrev etherShost : Field := ⟨6, etherAddrLen⟩
abbrev etherType : Field := ⟨12, 2⟩

-- `struct sr_ip_hdr`
abbrev ipHdr : Field := ⟨14, 20⟩
abbrev ipLen : Field := ⟨16, 2⟩
abbrev ipTtl : Field := ⟨22, 1⟩
abbrev ipP : Field := ⟨23, 1⟩
abbrev ipSum : Field := ⟨24, 2⟩
abbrev ipSrc : Field := ⟨26, 4⟩
abbrev ipDst : Field := ⟨30, 4⟩

-- `struct sr_icmp_hdr`
abbrev icmpHdr : Field := ⟨34, 36⟩
abbrev icmpType : Field := ⟨34, 1⟩
abbrev icmpCode : Field := ⟨35, 1⟩
abbrev icmpSum : Field := ⟨36, 2⟩
abbrev icmpData : Field := ⟨42, 28⟩

-- `struct sr_arp_hdr`
abbrev arpHdr : Field := ⟨14, 28⟩
abbrev arHrd : Field := ⟨14, 2⟩
abbrev arPro : Field := ⟨16, 2⟩
abbrev arHln : Field := ⟨18, 1⟩
abbrev arPln : Field := ⟨19, 1⟩
abbrev arOp : Field := ⟨20, 2⟩
abbrev arSha : Field := ⟨22, etherAddrLen⟩
abbrev arSip : Field := ⟨28, 4⟩
abbrev arTha : Field := ⟨32, etherAddrLen⟩
abbrev arTip : Field := ⟨38, 4⟩

def etherHdrSize : Nat := 14
def ipHdrSize : Nat := 20
def icmpHdrSize : Nat := 36
def arpHdrSize : Nat := 28

def icmpDataSize : Nat := 28
def initTtl : UInt8 := 255
def ipProtocolIcmp : UInt8 := 1
def ethertypeArp : UInt16 := 0x0806
def ethertypeIp : UInt16 := 0x0800
def arpOpRequest : UInt16 := 1
def arpOpReply : UInt16 := 2
def arpHrdEthernet : UInt16 := 1

/-- The bytes of a field. -/
def Env.get (env : Env) (f : Field) (buf : List UInt8) : List UInt8 :=
  peek env.beyond buf f.off f.size

@[simp] theorem Env.length_get (env : Env) (f : Field) (buf : List UInt8) :
    (env.get f buf).length = f.size :=
  length_peek _ _ _ _

/-- A field of one byte. -/
def Env.getU8 (env : Env) (f : Field) (buf : List UInt8) : UInt8 :=
  buf.getD f.off (env.beyond f.off)

/-- A field of two bytes after `ntohs`. -/
def Env.getU16 (env : Env) (f : Field) (buf : List UInt8) : UInt16 :=
  ofBe16 (env.get f buf)

/-- A checksum field, as the code compares it. -/
def Env.getSum (env : Env) (f : Field) (buf : List UInt8) : UInt16 :=
  ofMem16 env.endian (env.get f buf)

/-- An IP address. -/
def Env.getU32 (env : Env) (f : Field) (buf : List UInt8) : UInt32 :=
  ofBe32 (env.get f buf)

/-- The MAC address at `ether_dhost`, `ether_shost` or `ar_sha`. -/
def Env.getMac (env : Env) (off : Nat) (buf : List UInt8) : Mac :=
  ⟨peek env.beyond buf off etherAddrLen, length_peek _ _ _ _⟩

/-- The buffer with a field overwritten. A write over the end of the buffer,
which the code does not make, changes nothing. -/
def Field.set (f : Field) (bs buf : List UInt8) : List UInt8 :=
  if f.off + bs.length ≤ buf.length then put buf f.off bs else buf

/-- `ethertype(buf)`. -/
def ethertype (env : Env) (buf : List UInt8) : UInt16 := env.getU16 etherType buf

/-! ## Interfaces and routes -/

/-- `sr_get_interface(sr, name)`. -/
def Sr.srGetInterface (sr : Sr) (name : IfName) : Option SrIf :=
  sr.ifList.find? (·.name = name)

/-- `get_interface_from_ip(sr, ip_address)`. -/
def Sr.getInterfaceFromIp (sr : Sr) (ipAddress : UInt32) : Option SrIf :=
  sr.ifList.find? (·.ip = ipAddress)

/-- `get_interface_from_eth(sr, eth_address)`. -/
def Sr.getInterfaceFromEth (sr : Sr) (ethAddress : Mac) : Option SrIf :=
  sr.ifList.find? (·.addr = ethAddress)

/-- `mask.s_addr` as the integer the code compares, in host byte order. -/
def Env.maskValue (env : Env) (mask : UInt32) : UInt32 :=
  match env.endian with
  | .little => ofBe32 (be32 mask).reverse
  | .big => mask

/-- `!best_match || (node->mask.s_addr > best_match->mask.s_addr)`. -/
def isBetter (env : Env) (node : SrRt) : Option SrRt → Bool
  | none => true
  | some bestMatch => env.maskValue node.mask > env.maskValue bestMatch.mask

/-- The loop of `process_ip_packet` over the routing table. -/
def bestMatchLoop (env : Env) (ipDst : UInt32) : Option SrRt → List SrRt → Option SrRt
  | bestMatch, [] => bestMatch
  | bestMatch, node :: rest =>
      bestMatchLoop env ipDst
        (if node.dest &&& node.mask = ipDst &&& node.mask ∧ isBetter env node bestMatch then
          some node
        else bestMatch)
        rest

/-! ## Sending -/

def Sr.log (sr : Sr) (e : Event) : Sr := { sr with trace := sr.trace ++ [e] }

/-- `sr_ether_addrs_match_interface(sr, buf, name)`. -/
def Sr.srEtherAddrsMatchInterface (sr : Sr) (buf : List UInt8) (name : IfName) : Bool :=
  match sr.srGetInterface name with
  | none => false
  | some iface => slice buf etherShost.off etherShost.size = iface.addr.bytes

/-- `sr_send_packet(sr, buf, len, iface)`. -/
def Sr.srSendPacket (sr : Sr) (cause : Cause) (buf : List UInt8) (iface : IfName) : Sr :=
  if buf.length < etherHdrSize then sr.log (.refused cause iface buf)
  else if ¬ sr.srEtherAddrsMatchInterface buf iface then sr.log (.refused cause iface buf)
  else sr.log (.sent cause iface buf)

/-- The frame `send_fabricated_icmp_packet` builds. -/
def fabricatedIcmp (env : Env) (packet : List UInt8) (type code : UInt8)
    (outgoingInterface : SrIf) (destIntf : Option SrIf) : List UInt8 :=
  let hdrLength := icmpHdrSize + etherHdrSize + ipHdrSize
  let sendingLength := if type = 0 then packet.length else hdrLength
  let icmp := List.replicate sendingLength (0 : UInt8)
  let srcIp := match destIntf with
    | some intf => intf.ip
    | none => outgoingInterface.ip
  -- for an echo reply the source copies the payload of the new frame onto itself
  let icmp :=
    if type = 0 then
      put icmp icmpHdr.off (slice icmp icmpHdr.off (sendingLength - etherHdrSize - ipHdrSize))
    else icmpData.set (peek env.beyond packet ipHdr.off icmpDataSize) icmp
  let sum :=
    if type = 0 then
      cksum env.endian
        (peek env.beyond icmp icmpHdr.off (packet.length - etherHdrSize - ipHdrSize))
    else cksum env.endian (env.get icmpHdr icmp)
  let icmp := icmpSum.set (memU16 env.endian sum) icmp
  let icmp := icmpType.set [type] icmp
  let icmp := icmpCode.set [code] icmp
  let icmp := icmpSum.set (memU16 env.endian 0) icmp
  let icmp := ipHdr.set (env.get ipHdr packet) icmp
  let icmp := ipTtl.set [initTtl] icmp
  let icmp := ipP.set [ipProtocolIcmp] icmp
  let icmp := ipLen.set (be16 (UInt16.ofNat (sendingLength - etherHdrSize))) icmp
  let icmp := ipSrc.set (be32 srcIp) icmp
  let icmp := ipDst.set (env.get ipSrc packet) icmp
  let icmp := ipSum.set (memU16 env.endian 0) icmp
  let icmp := ipSum.set (memU16 env.endian (cksum env.endian (env.get ipHdr icmp))) icmp
  let icmp := etherDhost.set (env.get etherShost packet) icmp
  let icmp := etherShost.set outgoingInterface.addr.bytes icmp
  etherType.set (be16 ethertypeIp) icmp

/-- `send_fabricated_icmp_packet(sr, packet, len, got_on_intf, icmp_type,
icmp_code, dest_intf)`. -/
def Sr.sendFabricatedIcmpPacket (env : Env) (sr : Sr) (cause : Cause) (packet : List UInt8)
    (gotOnIntf : IfName) (type code : UInt8) (destIntf : Option SrIf) : Option Sr :=
  match sr.srGetInterface gotOnIntf with
  | none => none
  | some outgoingInterface =>
      some (sr.srSendPacket cause (fabricatedIcmp env packet type code outgoingInterface destIntf)
        gotOnIntf)

/-! ## ARP requests -/

/-- The ARP request `process_arpreq` broadcasts. -/
def arpRequestFrame (intf : SrIf) (ip : UInt32) : List UInt8 :=
  let frame := List.replicate (etherHdrSize + arpHdrSize) (0 : UInt8)
  let frame := arOp.set (be16 arpOpRequest) frame
  let frame := arTha.set (List.replicate etherAddrLen 0xff) frame
  let frame := arTip.set (be32 ip) frame
  let frame := arPro.set (be16 ethertypeIp) frame
  let frame := arHln.set [UInt8.ofNat etherAddrLen] frame
  let frame := arSip.set (be32 intf.ip) frame
  let frame := arSha.set intf.addr.bytes frame
  let frame := arPln.set [4] frame
  let frame := arHrd.set (be16 arpHrdEthernet) frame
  let frame := etherDhost.set (List.replicate etherAddrLen 0xff) frame
  let frame := etherType.set (be16 ethertypeArp) frame
  etherShost.set intf.addr.bytes frame

/-- `sr_arpcache_queuereq(&(sr->cache), ip, packet, packet_len, iface)`, and the
request it returns. -/
def Sr.enqueue (sr : Sr) (ip : UInt32) (packet : List UInt8) (iface : IfName) : Sr × Nat :=
  let (cache, request) :=
    sr.cache.srArpcacheQueuereq ip packet iface sr.allocations (sr.allocations + 1)
  ({ sr with cache, allocations := sr.allocations + 2 }.log
    (.queued ip { addr := sr.allocations + 1, buf := packet, iface }), request)

/-- The loop of `process_arpreq` over the packets of a request it gives up. -/
def Sr.unreachableLoop (env : Env) (request : Nat) : List SrPacket → Sr → Option Sr
  | [], sr => some sr
  | packet :: rest, sr =>
      match sr.getInterfaceFromEth (env.getMac etherDhost.off packet.buf) with
      | none => unreachableLoop env request rest (sr.log (.unmatched request packet))
      | some sendingIntf =>
          match sr.sendFabricatedIcmpPacket env (.unreachable request packet) packet.buf
              sendingIntf.name 3 1 none with
          | none => none
          | some sr => unreachableLoop env request rest sr

/-- `process_arpreq(sr, request)`. Both readings of `time(NULL)` have an index
whether or not the second is made. -/
def Sr.processArpreq (env : Env) (sr : Sr) (request : Nat) : Option Sr :=
  match sr.cache.deref request with
  | none => none
  | some req =>
      let now := env.time sr.ticks
      let sent := env.time (sr.ticks + 1)
      let sr := { sr with ticks := sr.ticks + 2 }
      if now - req.sent ≥ 1 then
        if req.timesSent < 5 then
          match req.packets.head? with
          | none => none
          | some packet =>
              match sr.srGetInterface packet.iface with
              | none => none
              | some intf =>
                  let cache := sr.cache.updateReq request fun r =>
                    { r with timesSent := r.timesSent + 1, sent }
                  some ({ sr with cache }.srSendPacket (.arpRequest request sent)
                    (arpRequestFrame intf req.ip) intf.name)
        else
          match sr.unreachableLoop env request req.packets with
          | none => none
          | some sr =>
              some ({ sr with cache := sr.cache.srArpreqDestroy request }.log
                (.gaveUp request now))
      else some sr

/-- The loop of `sr_arpcache_sweepreqs`; `next_request` is read before the
call. -/
def Sr.sweepLoop (env : Env) : Nat → Option Nat → Sr → Option Sr
  | _, none, sr => some sr
  | 0, some _, _ => none
  | fuel + 1, some request, sr =>
      let nextRequest := ArpCache.next request sr.cache.requests
      match (sr.log (.visited request)).processArpreq env request with
      | none => none
      | some sr => sweepLoop env fuel nextRequest sr

/-- `sr_arpcache_sweepreqs(sr)`. -/
def Sr.srArpcacheSweepreqs (env : Env) (sr : Sr) : Option Sr :=
  sr.sweepLoop env sr.cache.requests.length (sr.cache.requests.head?.map ArpReq.addr)

/-- One turn of the loop of `sr_arpcache_timeout`. -/
def Sr.srArpcacheTimeout (env : Env) (sr : Sr) : Option Sr :=
  { sr with cache := sr.cache.expire (env.time sr.ticks), ticks := sr.ticks + 1
  }.srArpcacheSweepreqs env

/-! ## IP packets -/

/-- `ip_sum` set to 0 and to the checksum of the header. -/
def recomputeIpSum (env : Env) (packet : List UInt8) : List UInt8 :=
  let packet := ipSum.set (memU16 env.endian 0) packet
  ipSum.set (memU16 env.endian (cksum env.endian (env.get ipHdr packet))) packet

/-- `process_ip_packet` on a packet for the router itself. -/
def Sr.processLocal (env : Env) (sr : Sr) (packet : List UInt8) (interface : IfName)
    (destIntf : SrIf) : Option Sr :=
  if env.getU8 ipP packet = ipProtocolIcmp then
    if icmpHdrSize + etherHdrSize + ipHdrSize > packet.length then some sr
    else
      let originalChksum := env.getSum icmpSum packet
      let packet := icmpSum.set (memU16 env.endian 0) packet
      let packet := icmpSum.set (memU16 env.endian (cksum env.endian
        (slice packet icmpHdr.off (packet.length - etherHdrSize - ipHdrSize)))) packet
      if env.getSum icmpSum packet ≠ originalChksum then some sr
      else if env.getU8 icmpType packet ≠ 8 then some sr
      else sr.sendFabricatedIcmpPacket env .icmp packet interface 0 0 (some destIntf)
  else sr.sendFabricatedIcmpPacket env .icmp packet interface 3 3 (some destIntf)

/-- `process_ip_packet` on a packet to forward by the route `nextHop`. -/
def Sr.forwardPacket (env : Env) (sr : Sr) (packet : List UInt8) (nextHop : SrRt) :
    Option Sr :=
  let packet := recomputeIpSum env (ipTtl.set [env.getU8 ipTtl packet - 1] packet)
  match sr.cache.srArpcacheLookup nextHop.gw with
  | none =>
      let (sr, request) := sr.enqueue nextHop.gw packet nextHop.interface
      sr.processArpreq env request
  | some nextHopMac =>
      match sr.srGetInterface nextHop.interface with
      | none => none
      | some intf =>
          let packet := etherDhost.set nextHopMac.mac.bytes packet
          let packet := etherShost.set intf.addr.bytes packet
          some (sr.srSendPacket .forward packet intf.name)

/-- `process_ip_packet(sr, packet, len, interface)`. What it leaves in the
lent buffer nobody reads. -/
def Sr.processIpPacket (env : Env) (sr : Sr) (packet : List UInt8) (interface : IfName) :
    Option Sr :=
  if ipHdrSize + etherHdrSize > packet.length then some sr
  else
    let originalChksum := env.getSum ipSum packet
    let packet := recomputeIpSum env packet
    if env.getSum ipSum packet ≠ originalChksum then some sr
    else
      match sr.getInterfaceFromIp (env.getU32 ipDst packet) with
      | some destIntf => sr.processLocal env packet interface destIntf
      | none =>
          if 1 ≥ env.getU8 ipTtl packet then
            sr.sendFabricatedIcmpPacket env .icmp packet interface 11 0 none
          else
            match bestMatchLoop env (env.getU32 ipDst packet) none sr.routingTable with
            | none => sr.sendFabricatedIcmpPacket env .icmp packet interface 3 0 none
            | some nextHop => sr.forwardPacket env packet nextHop

/-! ## ARP packets -/

/-- The ARP reply to the request in `packet`. -/
def arpReplyFrame (env : Env) (packet : List UInt8) (gotOnIntf : SrIf) : List UInt8 :=
  let reply := List.replicate packet.length (0 : UInt8)
  let reply := etherDhost.set (env.get etherShost packet) reply
  let reply := etherShost.set gotOnIntf.addr.bytes reply
  let reply := etherType.set (be16 ethertypeArp) reply
  let reply := arpHdr.set (env.get arpHdr packet) reply
  let reply := arOp.set (be16 arpOpReply) reply
  let reply := arSha.set gotOnIntf.addr.bytes reply
  let reply := arTha.set (env.get etherShost packet) reply
  let reply := arSip.set (be32 gotOnIntf.ip) reply
  arTip.set (env.get arSip packet) reply

/-- A queued frame as it leaves when its next hop is resolved. -/
def replayFrame (mac : Mac) (gotOnIntf : SrIf) (buf : List UInt8) : List UInt8 :=
  etherDhost.set mac.bytes (etherShost.set gotOnIntf.addr.bytes buf)

/-- The loop of `process_arp_packet` over the packets of the request it
resolves. -/
def Sr.replayLoop (gotOnIntf : Option SrIf) (interface : IfName) (ip : UInt32) (mac : Mac) :
    List SrPacket → Sr → Option Sr
  | [], sr => some sr
  | packet :: rest, sr =>
      match gotOnIntf with
      | none => none
      | some intf =>
          replayLoop gotOnIntf interface ip mac rest
            (sr.srSendPacket (.replay packet ip mac) (replayFrame mac intf packet.buf) interface)

/-- `process_arp_packet(sr, packet, len, interface)`. -/
def Sr.processArpPacket (env : Env) (sr : Sr) (packet : List UInt8) (interface : IfName) :
    Option Sr :=
  if arpHdrSize + etherHdrSize > packet.length then some sr
  else
    let gotOnIntf := sr.srGetInterface interface
    if env.getU16 arOp packet = arpOpRequest then
      match gotOnIntf with
      | none => none
      | some intf =>
          if env.getU32 arTip packet ≠ intf.ip then some sr
          else some (sr.srSendPacket .arpReply (arpReplyFrame env packet intf) interface)
    else if env.getU16 arOp packet = arpOpReply then
      let mac := env.getMac arSha.off packet
      let ip := env.getU32 arSip packet
      let (cache, cachedArpRequest) := sr.cache.srArpcacheInsert mac ip (env.time sr.ticks)
      let sr := { sr with cache, ticks := sr.ticks + 1 }
      match cachedArpRequest with
      | none => some sr
      | some req =>
          match sr.replayLoop gotOnIntf interface ip mac req.packets with
          | none => none
          | some sr => some { sr with cache := sr.cache.srArpreqDestroy req.addr }
    else some sr

/-! ## The router -/

/-- `sr_handlepacket(sr, packet, len, interface)`. -/
def Sr.srHandlepacket (env : Env) (sr : Sr) (packet : List UInt8) (interface : IfName) :
    Option Sr :=
  if ethertype env packet = ethertypeArp then sr.processArpPacket env packet interface
  else if ethertype env packet = ethertypeIp then sr.processIpPacket env packet interface
  else some sr

/-- What the router is asked to do. -/
inductive Op where
  /-- A frame arrives. -/
  | frame (packet : List UInt8) (interface : IfName)
  /-- The timeout thread wakes up. -/
  | timeout
  deriving DecidableEq, Repr

def Sr.apply (env : Env) (sr : Sr) : Op → Option Sr
  | .frame packet interface => sr.srHandlepacket env packet interface
  | .timeout => sr.srArpcacheTimeout env

/-- The router handles one operation, without a NULL dereference. -/
def Step (env : Env) (sr : Sr) (op : Op) (sr' : Sr) : Prop := sr.apply env op = some sr'

end NetLabs.Router
