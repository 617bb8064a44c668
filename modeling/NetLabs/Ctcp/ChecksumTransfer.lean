/-
NetLabs.Ctcp.ChecksumTransfer — a wrong cTCP checksum as a wrong TCP
checksum.

`convert_to_datagram` adds to the TCP checksum the difference between the
correct cTCP checksum and the one in the segment. The difference is taken
modulo `2 ^ 16`, while a receiver adds up modulo 0xffff, where 0 and 0xffff
are two spellings of zero. So the one wrong value that turns 0xffff into 0
goes unnoticed when the rest of the packet adds up to zero already
(`transfer_iff`).
-/
import NetLabs.Ctcp.Datagram

namespace NetLabs.Ctcp

open NetLabs.Lib

/-! ## The receiver's sum -/

/-- The bytes a receiver adds up: the pseudoheader of the IP packet, whose TCP
length is the total length less the IP header, the TCP header and the data. -/
def tcpCovered (packet : List UInt8) : List UInt8 :=
  let tcpLen := ofBe16 (slice packet 2 2) - UInt16.ofNat ipHdrSize
  slice packet 12 4 ++ slice packet 16 4 ++ [0] ++ slice packet 9 1 ++ be16 tcpLen
    ++ slice packet ipHdrSize tcpLen.toNat

/-- The one's-complement sum over them. -/
def tcpSum (packet : List UInt8) : Nat := onesSum 0xffff (wordsOf (tcpCovered packet))

/-- The packet of a segment before its TCP checksum is set. -/
def withoutSum (e : Endian) (config : Settings) (dst : Conn) (seg : CtcpSegment) : List UInt8 :=
  (datagramIphdr e config.ipAddr dst.ipAddr
      (UInt16.ofNat seg.data.length + UInt16.ofNat tcpHdrSize)).bytes e ++
    (segmentTcphdr config dst seg).bytes e ++ seg.data

/-! ## The parts of the packet -/

/-- The pseudoheader, and the TCP header up to its checksum. -/
def beforeSum (ip : Iphdr) (tcp : Tcphdr) (len : UInt16) : List UInt8 :=
  be32 ip.saddr ++ be32 ip.daddr ++ [0, ip.protocol] ++ be16 len ++ be16 tcp.thSport
    ++ be16 tcp.thDport ++ be32 tcp.thSeq ++ be32 tcp.thAck ++ [tcp.thOff * 16, tcp.thFlags]
    ++ be16 tcp.thWin

section Parts

variable (e : Endian) (ip : Iphdr) (tcp : Tcphdr) (data : List UInt8)

theorem length_beforeSum (len : UInt16) : (beforeSum ip tcp len).length = 28 := rfl

theorem slice_addresses :
    slice (ip.bytes e ++ tcp.bytes e ++ data) 12 4 = be32 ip.saddr ∧
    slice (ip.bytes e ++ tcp.bytes e ++ data) 16 4 = be32 ip.daddr ∧
    slice (ip.bytes e ++ tcp.bytes e ++ data) 9 1 = [ip.protocol] := by
  cases e <;> exact ⟨rfl, rfl, rfl⟩

theorem slice_tcp :
    slice (ip.bytes e ++ tcp.bytes e ++ data) ipHdrSize (tcpHdrSize + data.length) =
      tcp.bytes e ++ data := by
  have size : ipHdrSize = (ip.bytes e).length := (ip.length_bytes e).symm
  have rest : tcpHdrSize + data.length = (tcp.bytes e ++ data).length := by simp
  rw [slice, List.append_assoc, size, List.drop_left, rest, List.take_length]

theorem tcpCovered_eq (bound : data.length ≤ maxSegDataSize)
    (total : ip.totLen = UInt16.ofNat (ipHdrSize + tcpHdrSize + data.length)) :
    tcpCovered (ip.bytes e ++ tcp.bytes e ++ data) =
      beforeSum ip tcp (UInt16.ofNat (tcpHdrSize + data.length)) ++ memU16 e tcp.thSum ++
        (be16 tcp.thUrp ++ data) := by
  have small : data.length ≤ 1440 := bound
  have tcpLen : ip.totLen - UInt16.ofNat ipHdrSize = UInt16.ofNat (tcpHdrSize + data.length) := by
    rw [total, Nat.add_assoc, UInt16.ofNat_add, UInt16.add_comm, UInt16.add_sub_cancel]
  have length : (UInt16.ofNat (tcpHdrSize + data.length)).toNat = tcpHdrSize + data.length := by
    rw [UInt16.toNat_ofNat', tcpHdrSize]
    omega
  obtain ⟨saddr, daddr, protocol⟩ := slice_addresses e ip tcp data
  simp only [tcpCovered, slice_totLen, ofBe16_be16, tcpLen, length, saddr, daddr, protocol,
    slice_tcp]
  simp only [beforeSum, Tcphdr.bytes, List.append_assoc, List.cons_append, List.nil_append]

/-- The TCP checksum covers what the receiver adds up. -/
theorem cksumTcp_eq (bound : data.length ≤ maxSegDataSize) (protocol : ip.protocol = ipprotoTcp) :
    cksumTcp e (ip.bytes e ++ tcp.bytes e ++ data) (UInt16.ofNat data.length) =
      cksum e (beforeSum ip tcp (UInt16.ofNat (tcpHdrSize + data.length)) ++ memU16 e tcp.thSum ++
        (be16 tcp.thUrp ++ data)) := by
  have small : data.length ≤ 1440 := bound
  have length : (UInt16.ofNat data.length).toNat = data.length := by
    rw [UInt16.toNat_ofNat']
    omega
  obtain ⟨saddr, daddr, _⟩ := slice_addresses e ip tcp data
  rw [cksumTcp, saddr, daddr, length, slice_tcp, ← UInt16.ofNat_add]
  simp only [beforeSum, Tcphdr.bytes, protocol, List.append_assoc, List.cons_append,
    List.nil_append]

end Parts

/-! ## The transfer -/

/-- The receiver's sum of a packet with any value in its checksum field. -/
theorem tcpSum_iff (e : Endian) (ip : Iphdr) (tcp : Tcphdr) {data : List UInt8}
    (bound : data.length ≤ maxSegDataSize) (protocol : ip.protocol = ipprotoTcp)
    (total : ip.totLen = UInt16.ofNat (ipHdrSize + tcpHdrSize + data.length))
    (zero : tcp.thSum = 0) (sum : UInt16) :
    tcpSum (ip.bytes e ++ { tcp with thSum := sum }.bytes e ++ data) = 0xffff ↔
      sum = cksumTcp e (ip.bytes e ++ tcp.bytes e ++ data) (UInt16.ofNat data.length) ∨
        sum = 0 ∧ tcpSum (ip.bytes e ++ tcp.bytes e ++ data) = 0xffff := by
  have small : data.length ≤ 1440 := bound
  have short : (beforeSum ip tcp (UInt16.ofNat (tcpHdrSize + data.length))).length + 2 +
      (be16 tcp.thUrp ++ data).length ≤ 131074 := by
    rw [length_beforeSum, List.length_append, length_be16]
    omega
  have field := onesSum_field_iff e (length_beforeSum ip tcp _ ▸ rfl) short sum
  rw [tcpSum, tcpSum, tcpCovered_eq e ip _ data bound total, tcpCovered_eq e ip _ data bound total,
    cksumTcp_eq e ip tcp data bound protocol, zero]
  exact field

/-- A packet that adds up to 0xffff without its checksum. -/
theorem cksumTcp_of_sum (e : Endian) (ip : Iphdr) (tcp : Tcphdr) {data : List UInt8}
    (bound : data.length ≤ maxSegDataSize) (protocol : ip.protocol = ipprotoTcp)
    (total : ip.totLen = UInt16.ofNat (ipHdrSize + tcpHdrSize + data.length))
    (sum : tcpSum (ip.bytes e ++ tcp.bytes e ++ data) = 0xffff) :
    cksumTcp e (ip.bytes e ++ tcp.bytes e ++ data) (UInt16.ofNat data.length) = 0xffff := by
  have small : data.length ≤ 1440 := bound
  rw [cksumTcp_eq e ip tcp data bound protocol]
  rw [tcpSum, tcpCovered_eq e ip tcp data bound total] at sum
  refine cksum_of_sum e ?_ sum
  simp only [List.length_append, length_beforeSum, length_memU16, length_be16]
  omega

/-- **A wrong cTCP checksum becomes a wrong TCP checksum.** The receiver of a
segment's packet accepts its TCP checksum exactly if the segment's checksum is
correct, unless the packet without its checksum adds up to 0xffff and the
segment's checksum is one below the correct one. -/
theorem transfer_iff (e : Endian) (config : Settings) (dst : Conn) {seg : CtcpSegment} {len : Nat}
    (size : len = segmentHdrSize + seg.data.length) (bound : len ≤ 1460) :
    (tcpSum (convertToDatagram e config dst seg len) = 0xffff ↔
        seg.cksum = seg.correctCksum e) ↔
      ¬ (tcpSum (withoutSum e config dst seg) = 0xffff ∧ seg.cksum + 1 = seg.correctCksum e) := by
  have small : seg.data.length ≤ maxSegDataSize := by
    simp only [segmentHdrSize] at size
    simp only [maxSegDataSize]
    omega
  have total := totLen_datagramIphdr e config.ipAddr dst.ipAddr seg.data.length
  have accepted := tcpSum_iff e _ (segmentTcphdr config dst seg) small rfl total rfl
  have full := cksumTcp_of_sum e _ (segmentTcphdr config dst seg) small rfl total
  have pos : cksumTcp e (withoutSum e config dst seg) (UInt16.ofNat seg.data.length) ≠ 0 :=
    cksum_ne_zero e _
  rw [size, convertToDatagram_eq small, accepted]
  change tcpSum (withoutSum e config dst seg) = 0xffff →
    cksumTcp e (withoutSum e config dst seg) (UInt16.ofNat seg.data.length) = 0xffff at full
  rw [← withoutSum]
  generalize cksumTcp e (withoutSum e config dst seg) (UInt16.ofNat seg.data.length) = c at *
  generalize seg.correctCksum e = correct
  have same : c + (correct - seg.cksum) = c ↔ seg.cksum = correct := by
    constructor <;> intro h <;> grind
  rw [same]
  by_cases whole : tcpSum (withoutSum e config dst seg) = 0xffff
  · have below : c + (correct - seg.cksum) = 0 ↔ seg.cksum + 1 = correct := by
      rw [full whole]
      constructor <;> intro h <;> grind
    have apart : seg.cksum + 1 = correct → seg.cksum ≠ correct := by
      intro one eq
      grind
    simp only [whole, and_true, true_and, below]
    grind
  · simp only [whole, and_false, or_false, false_and, not_false_iff]

/-- A correct acknowledgment on its way. -/
theorem transfer_iff_ack :
    let seg : CtcpSegment := ⟨1, 1, 20, thAck, 1440, 18922, []⟩
    let config : Settings := ⟨0x0a000001, 9999, false, false⟩
    let dst : Conn := ⟨0x0a000002, 80, 1000, 2000⟩
    (tcpSum (convertToDatagram .little config dst seg 20) = 0xffff ↔
        seg.cksum = seg.correctCksum .little) ↔
      ¬ (tcpSum (withoutSum .little config dst seg) = 0xffff ∧
        seg.cksum + 1 = seg.correctCksum .little) :=
  transfer_iff .little _ _ rfl (by decide)

/-- An acknowledgment whose checksum is one below the correct one. Without its
TCP checksum its packet adds up to 0xffff, so that 0xffff is the checksum and
0 the one that is sent, which a receiver accepts as well. -/
theorem wrong_checksum_accepted :
    ¬ ∀ (e : Endian) (config : Settings) (dst : Conn) (seg : CtcpSegment) (len : Nat),
      len = segmentHdrSize + seg.data.length → len ≤ 1460 →
      (tcpSum (convertToDatagram e config dst seg len) = 0xffff ↔
        seg.cksum = seg.correctCksum e) := by
  intro general
  have same := (general .little ⟨0x0a000001, 9999, false, false⟩ ⟨0x0a000002, 80, 26369, 2000⟩
    ⟨1, 1, 20, thAck, 1440, 18921, []⟩ 20 rfl (by decide)).mp (by decide)
  exact absurd same (by decide)

end NetLabs.Ctcp
