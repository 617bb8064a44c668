/-
NetLabs.Router.IcmpMessages — the ICMP messages the router builds, against its
own checks and against the request.

`send_fabricated_icmp_packet` computes the ICMP checksum before type and code
are written, and then sets it to 0. `cksum` is never 0, so the comparison
`process_ip_packet` makes accepts no such message (`icmp_never_accepted`).
An echo reply copies its payload from its own zeroed buffer: it consists of
zeros from the ICMP header on, so its checksum is wrong by any rule
(`echoReply_never_mirrors`).

The rest of a message is right: its IP header is valid, its length field is
its length, an error quotes the datagram it is about and goes to its source
(`isMessage_fabricatedIcmp`).
-/
import NetLabs.Router.Emission
import NetLabs.Router.Fidelity

namespace NetLabs.Router

open NetLabs.Lib

variable {env : Env}

/-! ## The buffer in parts -/

/-- The length `send_fabricated_icmp_packet` gives a message. -/
def sendingLength (packet : List UInt8) (type : UInt8) : Nat :=
  if type = 0 then packet.length else icmpHdrSize + etherHdrSize + ipHdrSize

theorem sendingLength_echo (packet : List UInt8) : sendingLength packet 0 = packet.length := rfl

/-- An error has room for its headers and what it quotes. -/
theorem room_error (packet : List UInt8) {type : UInt8} (error : type ≠ 0) :
    icmpHdrSize + etherHdrSize + ipHdrSize ≤ sendingLength packet type := by
  rw [sendingLength, if_neg error]

/-- The buffer with the payload copied. -/
def icmpPayload (env : Env) (packet : List UInt8) (type : UInt8) : List UInt8 :=
  let icmp := List.replicate (sendingLength packet type) (0 : UInt8)
  if type = 0 then
    put icmp icmpHdr.off
      (slice icmp icmpHdr.off (sendingLength packet type - etherHdrSize - ipHdrSize))
  else icmpData.set (peek env.beyond packet ipHdr.off icmpDataSize) icmp

/-- The buffer with the ICMP header written. -/
def icmpBuffer (env : Env) (packet : List UInt8) (type code : UInt8) : List UInt8 :=
  let icmp := icmpPayload env packet type
  let sum :=
    if type = 0 then
      cksum env.endian
        (peek env.beyond icmp icmpHdr.off (packet.length - etherHdrSize - ipHdrSize))
    else cksum env.endian (env.get icmpHdr icmp)
  let icmp := icmpSum.set (memU16 env.endian sum) icmp
  let icmp := icmpType.set [type] icmp
  let icmp := icmpCode.set [code] icmp
  icmpSum.set (memU16 env.endian 0) icmp

/-- The buffer with the IP header written on top of `icmp`, but for its
checksum. -/
def ipBuffer (env : Env) (packet icmp : List UInt8) (length : Nat) (srcIp : UInt32) :
    List UInt8 :=
  let icmp := ipHdr.set (env.get ipHdr packet) icmp
  let icmp := ipTtl.set [initTtl] icmp
  let icmp := ipP.set [ipProtocolIcmp] icmp
  let icmp := ipLen.set (be16 (UInt16.ofNat (length - etherHdrSize))) icmp
  let icmp := ipSrc.set (be32 srcIp) icmp
  ipDst.set (env.get ipSrc packet) icmp

/-- The source address of a message. -/
def messageSource (outgoingInterface : SrIf) : Option SrIf → UInt32
  | some intf => intf.ip
  | none => outgoingInterface.ip

/-- A message is its ICMP part with an IP and an Ethernet header in front. -/
theorem fabricatedIcmp_eq (packet : List UInt8) (type code : UInt8) (out : SrIf)
    (destIntf : Option SrIf) :
    fabricatedIcmp env packet type code out destIntf =
      etherType.set (be16 ethertypeIp) (etherShost.set out.addr.bytes
        (etherDhost.set (env.get etherShost packet)
          (recomputeIpSum env (ipBuffer env packet (icmpBuffer env packet type code)
            (sendingLength packet type) (messageSource out destIntf))))) := by
  cases destIntf <;> rfl

/-- An echo reply copies zeros over zeros. -/
theorem icmpPayload_echo {packet : List UInt8} (long : ipHdrSize + etherHdrSize ≤ packet.length) :
    icmpPayload env packet 0 = List.replicate packet.length 0 := by
  simp only [ipHdrSize, etherHdrSize] at long
  refine put_slice ?_
  simp only [sendingLength, if_true, List.length_replicate, etherHdrSize, ipHdrSize]
  omega

theorem length_icmpPayload {packet : List UInt8} {type : UInt8}
    (long : ipHdrSize + etherHdrSize ≤ sendingLength packet type) :
    (icmpPayload env packet type).length = sendingLength packet type := by
  by_cases echo : type = 0
  · rw [echo, sendingLength, if_pos rfl] at long
    rw [echo, icmpPayload_echo long, List.length_replicate, sendingLength, if_pos rfl]
  · simp only [icmpPayload, if_neg echo, Field.length_set, List.length_replicate]

theorem length_icmpBuffer {packet : List UInt8} {type : UInt8} (code : UInt8)
    (long : ipHdrSize + etherHdrSize ≤ sendingLength packet type) :
    (icmpBuffer env packet type code).length = sendingLength packet type := by
  simp only [icmpBuffer, Field.length_set, length_icmpPayload long]

@[simp] theorem length_ipBuffer (packet icmp : List UInt8) (length : Nat) (srcIp : UInt32) :
    (ipBuffer env packet icmp length srcIp).length = icmp.length := by
  simp only [ipBuffer, Field.length_set]

theorem length_message {packet : List UInt8} {type : UInt8} (code : UInt8) (out : SrIf)
    (destIntf : Option SrIf) (long : ipHdrSize + etherHdrSize ≤ sendingLength packet type) :
    (fabricatedIcmp env packet type code out destIntf).length = sendingLength packet type := by
  rw [fabricatedIcmp_eq]
  simp only [Field.length_set, length_recomputeIpSum, length_ipBuffer,
    length_icmpBuffer code long]

/-- A write to the first `n` bytes leaves the rest. -/
theorem Field.drop_set {f : Field} {bs buf : List UInt8} {n : Nat}
    (before : f.off + bs.length ≤ n) : (f.set bs buf).drop n = buf.drop n := by
  unfold Field.set
  split
  · rename_i fits
    apply List.ext_getElem?
    intro i
    rw [List.getElem?_drop, List.getElem?_drop, getElem?_put (by omega) fits]
  · rfl

/-- The Ethernet header is written last. -/
theorem drop_ether_message (packet : List UInt8) (type code : UInt8) (out : SrIf)
    (destIntf : Option SrIf) :
    (fabricatedIcmp env packet type code out destIntf).drop etherHdrSize =
      (recomputeIpSum env (ipBuffer env packet (icmpBuffer env packet type code)
        (sendingLength packet type) (messageSource out destIntf))).drop etherHdrSize := by
  rw [fabricatedIcmp_eq, Field.drop_set (by decide),
    Field.drop_set (by rw [Mac.length_bytes]; decide),
    Field.drop_set (by rw [Env.length_get]; decide)]

/-- The headers in front are written before the ICMP part. -/
theorem drop_message (packet : List UInt8) (type code : UInt8) (out : SrIf)
    (destIntf : Option SrIf) :
    (fabricatedIcmp env packet type code out destIntf).drop icmpHdr.off =
      (icmpBuffer env packet type code).drop icmpHdr.off := by
  rw [fabricatedIcmp_eq, Field.drop_set (by decide),
    Field.drop_set (by rw [Mac.length_bytes]; decide),
    Field.drop_set (by rw [Env.length_get]; decide), recomputeIpSum_eq,
    Field.drop_set (by rw [length_memU16]; decide), ipBuffer]
  dsimp only
  rw [Field.drop_set (by rw [Env.length_get]; decide),
    Field.drop_set (by rw [length_be32]; decide), Field.drop_set (by rw [length_be16]; decide),
    Field.drop_set (by decide), Field.drop_set (by decide),
    Field.drop_set (by rw [Env.length_get]; decide)]

/-! ## What is right about a message -/

theorem get_message {f : Field} (behind : icmpHdr.off ≤ f.off) (packet : List UInt8)
    (type code : UInt8) (out : SrIf) (destIntf : Option SrIf) :
    env.get f (fabricatedIcmp env packet type code out destIntf) =
      env.get f (icmpBuffer env packet type code) :=
  Env.get_of_drop (drop_message packet type code out destIntf) behind

/-- Behind the Ethernet header only the header checksum is written after the IP
header. -/
theorem get_ip_message {f : Field} (behind : etherHdrSize ≤ f.off)
    (apart : f.off + f.size ≤ ipSum.off ∨ ipSum.off + ipSum.size ≤ f.off) (packet : List UInt8)
    (type code : UInt8) (out : SrIf) (destIntf : Option SrIf) :
    env.get f (fabricatedIcmp env packet type code out destIntf) =
      env.get f (ipBuffer env packet (icmpBuffer env packet type code)
        (sendingLength packet type) (messageSource out destIntf)) := by
  have front : (fabricatedIcmp env packet type code out destIntf).drop etherHdrSize =
      (recomputeIpSum env (ipBuffer env packet (icmpBuffer env packet type code)
        (sendingLength packet type) (messageSource out destIntf))).drop etherHdrSize :=
    drop_ether_message packet type code out destIntf
  rw [Env.get_of_drop front behind, recomputeIpSum_eq, Env.get_set_apart]
  rwa [length_memU16]

/-- A message of this type and code about `packet`, but for its ICMP
checksum. -/
structure IsMessage (env : Env) (packet : List UInt8) (type code : UInt8) (frame : List UInt8) :
    Prop where
  passes : PassesSum env frame
  len : env.getU16 ipLen frame = UInt16.ofNat (frame.length - etherHdrSize)
  icmpType : env.get icmpType frame = [type]
  icmpCode : env.get icmpCode frame = [code]
  dst : env.get ipDst frame = env.get ipSrc packet
  etherDst : env.get etherDhost frame = env.get etherShost packet
  quoted : type ≠ 0 → env.get icmpData frame = peek env.beyond packet ipHdr.off icmpDataSize

/-- A header with a recomputed checksum passes the comparison. -/
theorem passesSum_recompute (packet : List UInt8) : PassesSum env (recomputeIpSum env packet) := by
  rw [PassesSum, recomputeIpSum_eq env packet, recomputeIpSum_set (length_memU16 _ _),
    recomputeIpSum_eq env packet]

/-- The comparison looks at the IP header only. -/
theorem passesSum_congr {p q : List UInt8} (hp : ipHdrSize + etherHdrSize ≤ p.length)
    (hq : ipHdrSize + etherHdrSize ≤ q.length) (same : p.drop etherHdrSize = q.drop etherHdrSize) :
    PassesSum env p ↔ PassesSum env q := by
  rw [passesSum_iff hp, passesSum_iff hq, headerSum, headerSum, Env.getU16, Env.getU16,
    Env.get_of_drop same  (by decide), Env.get_of_drop same  (by decide)]

theorem isMessage_fabricatedIcmp {packet : List UInt8} {type : UInt8} (code : UInt8) (out : SrIf)
    (destIntf : Option SrIf)
    (room : icmpHdrSize + etherHdrSize + ipHdrSize ≤ sendingLength packet type) :
    IsMessage env packet type code (fabricatedIcmp env packet type code out destIntf) := by
  have long : ipHdrSize + etherHdrSize ≤ sendingLength packet type := le_trans (by decide) room
  have sizeIcmp : (icmpBuffer env packet type code).length = sendingLength packet type :=
    length_icmpBuffer code long
  have whole : icmpHdrSize + etherHdrSize + ipHdrSize ≤
      (icmpBuffer env packet type code).length := by rwa [sizeIcmp]
  have wholePayload : icmpHdrSize + etherHdrSize + ipHdrSize ≤
      (icmpPayload env packet type).length := by rwa [length_icmpPayload long]
  have size : (fabricatedIcmp env packet type code out destIntf).length =
      sendingLength packet type := length_message code out destIntf long
  constructor
  · rw [passesSum_congr (by rwa [size])
      (by rwa [length_recomputeIpSum, length_ipBuffer, sizeIcmp])
      (drop_ether_message packet type code out destIntf)]
    exact passesSum_recompute _
  · rw [size, Env.getU16, get_ip_message (by decide) (.inl (by decide)), ipBuffer,
      Env.get_set_apart (.inl (by decide)), Env.get_set_apart (.inl (by decide)),
      Env.get_set ⟨length_be16 _, ?_⟩, ofBe16_be16]
    simp only [Field.length_set]
    exact le_trans (by decide) whole
  · rw [get_message (by decide), icmpBuffer, Env.get_set_apart (.inl (by decide)),
      Env.get_set_apart (.inl (by decide)), Env.get_set ⟨rfl, ?_⟩]
    rw [Field.length_set]
    exact le_trans (by decide) wholePayload
  · rw [get_message (by decide), icmpBuffer, Env.get_set_apart (.inl (by decide)),
      Env.get_set ⟨rfl, ?_⟩]
    rw [Field.length_set, Field.length_set]
    exact le_trans (by decide) wholePayload
  · rw [get_ip_message (by decide) (.inr (by decide)), ipBuffer,
      Env.get_set ⟨by rw [Env.length_get], ?_⟩]
    simp only [Field.length_set]
    exact le_trans (by decide) whole
  · rw [fabricatedIcmp_eq, Env.get_set_apart (.inl (by decide)),
      Env.get_set_apart (.inl (by decide)), Env.get_set ⟨by rw [Env.length_get], ?_⟩]
    rw [length_recomputeIpSum, length_ipBuffer]
    exact le_trans (by decide) whole
  · intro error
    rw [get_message (by decide), icmpBuffer,
      Env.get_set_apart (.inr (by rw [length_memU16]; decide)),
      Env.get_set_apart (.inr (by simp)), Env.get_set_apart (.inr (by simp)),
      Env.get_set_apart (.inr (by rw [length_memU16]; decide)), icmpPayload, if_neg error,
      Env.get_set ⟨by rw [length_peek]; rfl, ?_⟩]
    rw [List.length_replicate]
    exact le_trans (by decide) room

/-- No message passes the ICMP comparison: its checksum is 0. -/
theorem not_passesIcmpSum_message {packet : List UInt8} {type : UInt8} (code : UInt8)
    (out : SrIf) (destIntf : Option SrIf)
    (room : icmpHdrSize + etherHdrSize + ipHdrSize ≤ sendingLength packet type) :
    ¬ PassesIcmpSum env (fabricatedIcmp env packet type code out destIntf) := by
  have long : ipHdrSize + etherHdrSize ≤ sendingLength packet type := le_trans (by decide) room
  have size : (fabricatedIcmp env packet type code out destIntf).length =
      sendingLength packet type := length_message code out destIntf long
  have cleared : env.getSum icmpSum (fabricatedIcmp env packet type code out destIntf) = 0 := by
    rw [Env.getSum, get_message (by decide), icmpBuffer, Env.get_set ⟨length_memU16 _ _, ?_⟩,
      ofMem16_memU16]
    rw [Field.length_set, Field.length_set, Field.length_set, length_icmpPayload long]
    exact le_trans (by decide) room
  intro passes
  rw [PassesIcmpSum, cleared, recomputeIcmpSum, Env.getSum,
    Env.get_set ⟨length_memU16 _ _, ?_⟩, ofMem16_memU16] at passes
  · exact cksum_ne_zero _ _ passes
  · rw [Field.length_set, size]
    exact le_trans (by decide) room

/-! ## Echo replies -/

/-- Zeros over zeros. -/
theorem Field.set_zeros (f : Field) (k n : Nat) :
    f.set (List.replicate k 0) (List.replicate n 0) = List.replicate n 0 := by
  unfold Field.set
  split
  · rename_i fits
    rw [List.length_replicate, List.length_replicate] at fits
    have zeros : List.replicate k (0 : UInt8) = slice (List.replicate n 0) f.off k := by
      rw [slice, List.drop_replicate, List.take_replicate, Nat.min_eq_left (by omega)]
    rw [zeros, put_slice (by rwa [List.length_replicate])]
  · rfl

/-- The checksum written before type and code does not matter. -/
theorem icmpSum_overwritten {sum zero : List UInt8} (type code : UInt8) {buf : List UInt8}
    (size : sum.length = 2) (size' : zero.length = 2)
    (fits : icmpSum.off + icmpSum.size ≤ buf.length) :
    icmpSum.set zero (icmpCode.set [code] (icmpType.set [type] (icmpSum.set sum buf))) =
      icmpSum.set zero (icmpCode.set [code] (icmpType.set [type] buf)) := by
  have fits' : icmpSum.off + sum.length ≤ buf.length := by rwa [size]
  have pastType : icmpType.set [type] (icmpSum.set sum buf) =
      icmpSum.set sum (icmpType.set [type] buf) :=
    (Field.set_comm (by simp) fits').symm
  have pastCode : icmpCode.set [code] (icmpSum.set sum (icmpType.set [type] buf)) =
      icmpSum.set sum (icmpCode.set [code] (icmpType.set [type] buf)) :=
    (Field.set_comm (by simp) (by rwa [Field.length_set])).symm
  rw [pastType, pastCode, Field.set_set icmpSum _ (by rw [size, size'])]

/-- From the ICMP header on, an echo reply consists of zeros. -/
theorem icmpBuffer_echo {packet : List UInt8}
    (long : icmpHdrSize + etherHdrSize + ipHdrSize ≤ packet.length) :
    icmpBuffer env packet 0 0 = List.replicate packet.length 0 := by
  have payload : icmpPayload env packet 0 = List.replicate packet.length 0 :=
    icmpPayload_echo (le_trans (by decide) long)
  have zero : memU16 env.endian 0 = List.replicate 2 0 := by cases env.endian <;> decide
  have one : [(0 : UInt8)] = List.replicate 1 0 := rfl
  rw [icmpBuffer, payload, icmpSum_overwritten 0 0 (length_memU16 _ _) (length_memU16 _ _)
    (by rw [List.length_replicate]; exact le_trans (by decide) long), zero, one,
    Field.set_zeros, Field.set_zeros, Field.set_zeros]

/-- What the reply to the echo request `packet` has to be, apart from its ICMP
checksum and payload. -/
structure EchoHeaders (env : Env) (packet frame : List UInt8) : Prop where
  length : frame.length = packet.length
  icmpType : env.get icmpType frame = [0]
  icmpCode : env.get icmpCode frame = [0]
  ipValid : headerSum env frame = 0xffff
  src : env.get ipSrc frame = env.get ipDst packet
  dst : env.get ipDst frame = env.get ipSrc packet
  etherDst : env.get etherDhost frame = env.get etherShost packet

/-- `frame` mirrors the echo request `packet`. -/
structure MirrorsRequest (env : Env) (packet frame : List UInt8) : Prop
    extends EchoHeaders env packet frame where
  /-- identifier, sequence number and payload -/
  rest : frame.drop (icmpSum.off + icmpSum.size) = packet.drop (icmpSum.off + icmpSum.size)
  icmpValid : onesSum 0xffff (wordsOf (frame.drop icmpHdr.off)) = 0xffff

theorem sum_wordsOf_zeros : ∀ n, (wordsOf (List.replicate n 0)).sum = 0
  | 0 => rfl
  | 1 => rfl
  | n + 2 => by
    rw [List.replicate_succ, List.replicate_succ, wordsOf, List.sum_cons, sum_wordsOf_zeros n]
    rfl

theorem echoReply_zeros {packet : List UInt8} (out : SrIf) (destIntf : Option SrIf)
    (long : icmpHdrSize + etherHdrSize + ipHdrSize ≤ packet.length) :
    (fabricatedIcmp env packet 0 0 out destIntf).drop icmpHdr.off =
      List.replicate (packet.length - icmpHdr.off) 0 := by
  rw [drop_message, icmpBuffer_echo long, List.drop_replicate]

/-- The headers of a reply are right. -/
theorem echoHeaders_reply {packet : List UInt8} {sr : Sr} {destIntf : SrIf} (out : SrIf)
    (mine : sr.getInterfaceFromIp (env.getU32 ipDst packet) = some destIntf)
    (long : icmpHdrSize + etherHdrSize + ipHdrSize ≤ packet.length) :
    EchoHeaders env packet (fabricatedIcmp env packet 0 0 out (some destIntf)) := by
  have header : ipHdrSize + etherHdrSize ≤ packet.length := le_trans (by decide) long
  have message : IsMessage env packet 0 0 (fabricatedIcmp env packet 0 0 out (some destIntf)) :=
    isMessage_fabricatedIcmp 0 out (some destIntf) long
  have size : (fabricatedIcmp env packet 0 0 out (some destIntf)).length = packet.length :=
    length_message 0 out (some destIntf) header
  constructor
  · exact size
  · exact message.icmpType
  · exact message.icmpCode
  · exact ((passesSum_iff (by rwa [size])).mp message.passes).1
  · have found : destIntf.ip = env.getU32 ipDst packet := by
      simpa using List.find?_some mine
    rw [get_ip_message (by decide) (.inr (by decide)), ipBuffer,
      Env.get_set_apart (.inl (by decide)), Env.get_set ⟨length_be32 _, ?_⟩, messageSource, found,
      Env.getU32, be32_ofBe32 (Env.length_get _ _ _)]
    simp only [Field.length_set]
    rw [length_icmpBuffer 0 (sendingLength_echo packet ▸ header), sendingLength_echo]
    exact le_trans (by decide) long
  · exact message.dst
  · exact message.etherDst

/-- An echo reply is never the mirror of its request: the ICMP checksum is not. -/
theorem not_mirrorsRequest_reply {packet : List UInt8} (out : SrIf) (destIntf : Option SrIf)
    (long : icmpHdrSize + etherHdrSize + ipHdrSize ≤ packet.length) :
    ¬ MirrorsRequest env packet (fabricatedIcmp env packet 0 0 out destIntf) := by
  intro mirrors
  have valid := mirrors.icmpValid
  rw [echoReply_zeros out destIntf long, onesSum_eq (by decide) (wordsOf_le _),
    sum_wordsOf_zeros] at valid
  cases valid

/-- The message sent at an exit. -/
theorem since_answer {sr sr' : Sr} {packet : List UInt8} {interface : IfName}
    {type code : UInt8} {destIntf : Option SrIf}
    (long : ipHdrSize + etherHdrSize ≤ packet.length)
    (h : sr.answer env packet interface (some (type, code, destIntf)) = some sr') :
    ∃ out, sr.srGetInterface interface = some out ∧
      sr'.since sr =
        [.sent .icmp interface (fabricatedIcmp env packet type code out destIntf)] := by
  unfold Sr.answer Sr.sendFabricatedIcmpPacket at h
  dsimp only at h
  split at h
  · cases h
  · rename_i out found
    obtain rfl := Option.some.inj h
    refine ⟨out, found, since_eq ?_⟩
    rw [sr.srSendPacket_sent env .icmp found
      (le_trans (by decide) (length_fabricatedIcmp packet type code out destIntf long))
      (fabricatedIcmp_source packet type code out destIntf long)]
    rfl

/-- The frame that answers an echo request. -/
theorem since_echoReply {sr sr' : Sr} {packet : List UInt8} {interface : IfName}
    {destIntf : SrIf} (type : ethertype env packet = ethertypeIp)
    (request : sr.ipExit env packet = .echoReply destIntf)
    (step : Step env sr (.frame packet interface) sr') :
    sr.getInterfaceFromIp (env.getU32 ipDst packet) = some destIntf ∧
      icmpHdrSize + etherHdrSize + ipHdrSize ≤ packet.length ∧
      ∃ out, sr'.since sr =
        [.sent .icmp interface (fabricatedIcmp env packet 0 0 out (some destIntf))] := by
  obtain ⟨buf, leaves, -⟩ := frame_step_leaves type step
  have taken := takesExit_ipExit env sr packet
  rw [request] at leaves taken
  cases taken with
  | echoReply passes mine icmp long passesIcmp type =>
    obtain ⟨sr₁, answered, eq⟩ := Option.map_eq_some_iff.mp leaves
    obtain ⟨rfl, rfl⟩ := Prod.mk.inj eq
    obtain ⟨out, -, since⟩ := since_answer (le_trans (by decide) long) answered
    exact ⟨mine, long, out, since⟩

/-- **No echo reply mirrors its request.** Every echo request that passes the
checks is answered by one frame, which is not the one the request calls for. -/
theorem echoReply_never_mirrors {sr sr' : Sr} {packet : List UInt8} {interface : IfName}
    {destIntf : SrIf} (type : ethertype env packet = ethertypeIp)
    (request : sr.ipExit env packet = .echoReply destIntf)
    (step : Step env sr (.frame packet interface) sr') :
    ∃ frame, sr'.since sr = [.sent .icmp interface frame] ∧
      EchoHeaders env packet frame ∧ ¬ MirrorsRequest env packet frame := by
  obtain ⟨mine, long, out, since⟩ := since_echoReply type request step
  exact ⟨_, since, echoHeaders_reply out mine long,
    not_mirrorsRequest_reply out (some destIntf) long⟩

/-- An echo request with 28 bytes of data from 10.0.0.9 to 10.0.0.1. -/
def echoFrame : List UInt8 :=
  recomputeIcmpSum .counting (recomputeIpSum .counting
    ((Mac.local 1).bytes ++ (Mac.local 9).bytes ++ be16 ethertypeIp ++
      [0x45, 0, 0, 56, 0, 0, 0, 0, 64, 1, 0, 0] ++ be32 0x0a000009 ++ be32 0x0a000001 ++
      [8, 0, 0, 0, 0x12, 0x34, 0, 1] ++ List.replicate 28 0x41))

/-- The router after the request. -/
def answeredEcho : Sr := (twoPorts.apply .counting (.frame echoFrame eth0)).getD twoPorts

theorem step_answeredEcho : Step .counting twoPorts (.frame echoFrame eth0) answeredEcho := by
  unfold Step
  decide +kernel

theorem echoReply_never_mirrors_echo :
    ∃ frame, answeredEcho.since twoPorts = [.sent .icmp eth0 frame] ∧
      EchoHeaders .counting echoFrame frame ∧ ¬ MirrorsRequest .counting echoFrame frame :=
  echoReply_never_mirrors (by decide +kernel)
    (show twoPorts.ipExit .counting echoFrame = .echoReply ⟨eth0, .local 1, 0x0a000001⟩ by
      decide +kernel) step_answeredEcho

/-- The reply to a request with an identifier has none. -/
theorem echoReply_loses_identifier :
    ¬ ∀ (sr sr' : Sr) (packet : List UInt8) (interface : IfName) (destIntf : SrIf),
      ethertype .counting packet = ethertypeIp →
      sr.ipExit .counting packet = .echoReply destIntf →
      Step .counting sr (.frame packet interface) sr' →
      ∃ frame, sr'.since sr = [.sent .icmp interface frame] ∧
        MirrorsRequest .counting packet frame := by
  intro general
  obtain ⟨frame, since, mirrors⟩ := general twoPorts answeredEcho echoFrame eth0
    ⟨eth0, .local 1, 0x0a000001⟩ (by decide +kernel) (by decide +kernel) step_answeredEcho
  obtain ⟨-, long, out, since'⟩ := since_echoReply (by decide +kernel)
    (show twoPorts.ipExit .counting echoFrame = .echoReply ⟨eth0, .local 1, 0x0a000001⟩ by
      decide +kernel) step_answeredEcho
  rw [since'] at since
  injection since with same
  injection same with _ _ same
  have blank : frame.drop 38 = List.replicate 32 0 := by
    rw [← same, show 38 = icmpHdr.off + 4 from rfl, ← List.drop_drop, echoReply_zeros out _ long]
    decide +kernel
  have lost := blank.symm.trans mirrors.rest
  revert lost
  decide +kernel

/-! ## The router's own checks -/

/-- The frame of an event, if it is an ICMP message. -/
def Event.icmpFrame? : Event → Option (List UInt8)
  | .sent .icmp _ frame | .refused .icmp _ frame => some frame
  | .sent (.unreachable _ _) _ frame | .refused (.unreachable _ _) _ frame => some frame
  | _ => none

/-- `process_ip_packet` would accept `frame`, and `frame` says what an ICMP
message about `packet` has to. -/
structure AcceptedMessage (env : Env) (packet frame : List UInt8) : Prop where
  passes : PassesSum env frame
  passesIcmp : PassesIcmpSum env frame
  len : (env.getU16 ipLen frame).toNat = frame.length - etherHdrSize
  quoted : env.getU8 icmpType frame ≠ 0 →
    env.get icmpData frame = peek env.beyond packet ipHdr.off icmpDataSize
  dst : env.getU8 icmpType frame ≠ 0 → env.get ipDst frame = env.get ipSrc packet

/-- An event is no ICMP message, or one that fails the ICMP comparison. -/
def Event.FailsOwn (env : Env) (e : Event) : Prop :=
  ∀ frame, e.icmpFrame? = some frame → ¬ PassesIcmpSum env frame

theorem failsOwn_of_none {e : Event} (h : e.icmpFrame? = none) : e.FailsOwn env := by
  intro frame some
  rw [h] at some
  cases some

/-- An ICMP message that is built fails, whether it is sent or refused. -/
theorem failsOwn_sendEvent {sr : Sr} {cause : Cause} {packet : List UInt8} {type : UInt8}
    (code : UInt8) (out : SrIf) (destIntf : Option SrIf) (iface : IfName)
    (room : icmpHdrSize + etherHdrSize + ipHdrSize ≤ sendingLength packet type) :
    (sr.sendEvent cause (fabricatedIcmp env packet type code out destIntf) iface).FailsOwn
      env := by
  have fails : ¬ PassesIcmpSum env (fabricatedIcmp env packet type code out destIntf) :=
    not_passesIcmpSum_message code out destIntf room
  intro frame some
  unfold Sr.sendEvent at some
  split at some <;> cases cause <;> cases some <;> exact fails

theorem processArpreq_fails {sr sr' : Sr} {request : Nat}
    (h : sr.processArpreq env request = some sr') : Sr.Adds (Event.FailsOwn env) sr sr' := by
  obtain ⟨req, -, -, ⟨-, rfl⟩ | ⟨-, -, packet, intf, -, -, rfl⟩ | ⟨-, -, rfl⟩⟩ :=
    processArpreq_cases h
  · exact .of_eq rfl
  · exact .one rfl (failsOwn_of_none rfl)
  · refine ⟨_, List.append_assoc _ _ _, fun e he => ?_⟩
    rcases List.mem_append.mp he with he | he
    · obtain ⟨packet, -, rfl⟩ := List.mem_map.mp he
      unfold Sr.unreachableEvent
      split
      · exact failsOwn_of_none rfl
      · split
        · exact failsOwn_of_none rfl
        · rename_i out _
          intro frame some
          obtain rfl := Option.some.inj some
          exact not_passesIcmpSum_message 1 out none (room_error packet.buf (by decide))
    · obtain rfl := List.mem_singleton.mp he
      exact failsOwn_of_none rfl

theorem answer_fails {sr sr' : Sr} {packet : List UInt8} {interface : IfName}
    {type code : UInt8} {destIntf : Option SrIf}
    (room : icmpHdrSize + etherHdrSize + ipHdrSize ≤ sendingLength packet type)
    (h : sr.answer env packet interface (some (type, code, destIntf)) = some sr') :
    Sr.Adds (Event.FailsOwn env) sr sr' := by
  unfold Sr.answer Sr.sendFabricatedIcmpPacket at h
  dsimp only at h
  split at h
  · cases h
  · rename_i out _
    obtain rfl := Option.some.inj h
    rw [Sr.srSendPacket_eq]
    exact .one rfl (failsOwn_sendEvent code out destIntf interface room)

theorem processIpPacket_fails {sr sr' : Sr} {packet : List UInt8} {interface : IfName}
    (h : sr.processIpPacket env packet interface = some sr') :
    Sr.Adds (Event.FailsOwn env) sr sr' := by
  rw [processIpPacket_leaveBy] at h
  obtain ⟨⟨sr₁, buf⟩, leaves, rfl⟩ := Option.map_eq_some_iff.mp h
  have taken := takesExit_ipExit env sr packet
  generalize sr.ipExit env packet = exit at taken leaves
  cases taken with
  | tooShort | badHeaderSum | icmpTooShort | badIcmpSum | notEchoRequest =>
    exact .of_eq (congrArg Sr.trace (Option.some.inj (answer_of_leaveBy rfl leaves).1)).symm
  | echoReply _ _ _ long =>
    exact answer_fails (sendingLength_echo packet ▸ long) (answer_of_leaveBy rfl leaves).1
  | portUnreachable | timeExceeded | netUnreachable =>
    exact answer_fails (room_error packet (by decide)) (answer_of_leaveBy rfl leaves).1
  | @queued nextHop =>
    obtain ⟨sr₂, visited, eq⟩ := Option.map_eq_some_iff.mp leaves
    obtain ⟨rfl, -⟩ := Prod.mk.inj eq
    have queued := trace_enqueue sr nextHop.gw (rewritten env packet) nextHop.interface
    exact (Sr.Adds.one queued (failsOwn_of_none rfl)).trans (processArpreq_fails visited)
  | forwarded =>
    obtain ⟨intf, -, eq⟩ := Option.map_eq_some_iff.mp leaves
    obtain ⟨rfl, -⟩ := Prod.mk.inj eq
    rw [Sr.srSendPacket_eq]
    refine .one rfl (failsOwn_of_none ?_)
    unfold Sr.sendEvent
    split <;> rfl

/-- An ARP packet is about no ICMP message. -/
theorem processArpPacket_fails {sr sr' : Sr} {packet : List UInt8} {interface : IfName}
    (h : sr.processArpPacket env packet interface = some sr') :
    Sr.Adds (Event.FailsOwn env) sr sr' := by
  have whole := h
  unfold Sr.processArpPacket at h
  split at h
  · obtain rfl := Option.some.inj h
    exact .of_eq rfl
  rename_i long
  dsimp only at h
  split at h
  · split at h
    · cases h
    · split at h
      · obtain rfl := Option.some.inj h
        exact .of_eq rfl
      · obtain rfl := Option.some.inj h
        rw [Sr.srSendPacket_eq]
        refine .one rfl (failsOwn_of_none ?_)
        unfold Sr.sendEvent
        split <;> rfl
  split at h
  · rename_i op
    rcases arpReply_cases long op rfl rfl whole with
      ⟨-, rfl⟩ | ⟨req, -, -, ⟨-, rfl⟩ | ⟨intf, -, rfl⟩⟩
    · exact .of_eq rfl
    · exact .of_eq rfl
    · refine ⟨_, rfl, fun e he => ?_⟩
      obtain ⟨queued, -, rfl⟩ := List.mem_map.mp he
      refine failsOwn_of_none ?_
      unfold Sr.replayEvent Sr.sendEvent
      split <;> rfl
  · obtain rfl := Option.some.inj h
    exact .of_eq rfl

theorem step_fails {sr sr' : Sr} {op : Op} (h : Step env sr op sr') :
    Sr.Adds (Event.FailsOwn env) sr sr' := by
  cases op with
  | timeout =>
    have begun : Sr.Adds (Event.FailsOwn env) sr { sr with
        cache := sr.cache.expire (env.time sr.ticks), ticks := sr.ticks + 1 } := .of_eq rfl
    exact begun.trans (sweepLoop_adds (fun _ => failsOwn_of_none rfl) processArpreq_fails h)
  | frame packet interface =>
    unfold Step Sr.apply Sr.srHandlepacket at h
    dsimp only at h
    split at h
    · exact processArpPacket_fails h
    · split at h
      · exact processIpPacket_fails h
      · obtain rfl := Option.some.inj h
        exact .of_eq rfl

/-- **The router accepts none of its own ICMP messages.** No message that is
built along a run, from whatever state, is what an ICMP message about any
packet has to be: it fails the ICMP comparison. -/
theorem icmp_never_accepted {sr sr' : Sr} {ops : List Op} (h : Run (Step env) sr ops sr')
    {e : Event} {frame : List UInt8} (new : e ∈ sr'.since sr) (icmp : e.icmpFrame? = some frame)
    (packet : List UInt8) : ¬ AcceptedMessage env packet frame := by
  obtain ⟨es, trace, fails⟩ := run_adds step_fails h
  rw [since_eq trace] at new
  intro accepted
  exact fails e new frame icmp accepted.passesIcmp

/-- A UDP packet without data from 10.0.0.9 to port 7 of 10.0.0.1. -/
def localUdpFrame : List UInt8 :=
  recomputeIpSum .counting
    ((Mac.local 1).bytes ++ (Mac.local 9).bytes ++ be16 ethertypeIp ++
      [0x45, 0, 0, 28, 0, 0, 0, 0, 64, 17, 0, 0] ++ be32 0x0a000009 ++ be32 0x0a000001 ++
      [0x30, 0x39, 0, 7, 0, 8, 0, 0])

/-- The router after the packet. -/
def refusedPort : Sr := (twoPorts.apply .counting (.frame localUdpFrame eth0)).getD twoPorts

theorem step_refusedPort : Step .counting twoPorts (.frame localUdpFrame eth0) refusedPort := by
  unfold Step
  decide +kernel

/-- The port unreachable about it. -/
theorem exists_portUnreachable :
    ∃ frame, .sent .icmp eth0 frame ∈ refusedPort.since twoPorts := by
  obtain ⟨buf, leaves, -⟩ := frame_step_leaves (by decide +kernel) step_refusedPort
  have exit : twoPorts.ipExit .counting localUdpFrame =
      .portUnreachable ⟨eth0, .local 1, 0x0a000001⟩ := by decide +kernel
  rw [exit] at leaves
  obtain ⟨out, -, since⟩ := since_answer (by decide) (answer_of_leaveBy rfl leaves).1
  exact ⟨_, since ▸ List.mem_singleton_self _⟩

theorem icmp_never_accepted_port :
    ∃ frame, .sent .icmp eth0 frame ∈ refusedPort.since twoPorts ∧
      ∀ packet, ¬ AcceptedMessage .counting packet frame := by
  obtain ⟨frame, sent⟩ := exists_portUnreachable
  exact ⟨frame, sent, icmp_never_accepted (.single step_refusedPort) sent rfl⟩

/-- A port unreachable is not accepted. -/
theorem portUnreachable_fails_own_check :
    ¬ ∀ (sr sr' : Sr) (packet : List UInt8) (interface : IfName),
      Step .counting sr (.frame packet interface) sr' →
      ∀ e ∈ sr'.since sr, ∀ frame, e.icmpFrame? = some frame →
        AcceptedMessage .counting packet frame := by
  intro general
  obtain ⟨frame, sent⟩ := exists_portUnreachable
  have accepted := general twoPorts refusedPort localUdpFrame eth0 step_refusedPort _ sent frame rfl
  obtain ⟨es, trace, fails⟩ := step_fails step_refusedPort
  rw [since_eq trace] at sent
  exact fails _ sent frame rfl accepted.passesIcmp

end NetLabs.Router
