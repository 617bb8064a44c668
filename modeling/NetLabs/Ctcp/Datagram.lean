/-
NetLabs.Ctcp.Datagram — cTCP segments on the wire, `convert_to_datagram` and
`convert_to_ctcp` of `lab3/ctcp_sys_internal.c`.

A segment travels as an IP packet with a TCP payload. Its sequence numbers
become absolute on the way out and relative again on the way in. Its checksum
does not travel: what travels is its difference from the correct one, added
to the TCP checksum of the packet, so that a wrong cTCP checksum is a wrong
TCP checksum (`ChecksumTransfer` has the exception) and arrives as wrong by as
much. `convert_round_trip` says that encoder and decoder cancel.

Headers are written and read field by field. As in `Segment.lean`, a field in
network order holds the value `ntohs` or `ntohl` gives, and the two checksums
hold the raw integer. A datagram is long enough for what is read from it;
`DatagramBounds` is about those that are not.
-/
import NetLabs.Ctcp.Segment

namespace NetLabs.Ctcp

open NetLabs.Lib

/-! ## Headers -/

def ipHdrSize : Nat := 20
def tcpHdrSize : Nat := 20

/-- `IP_ID`, `DEFAULT_TTL` and `IPPROTO_TCP`. -/
def ipId : UInt16 := 144
def defaultTtl : UInt8 := 64
def ipprotoTcp : UInt8 := 6

/-- `struct iphdr`. -/
structure Iphdr where
  /-- `version` in the high and `ihl` in the low half -/
  versionIhl : UInt8
  tos : UInt8
  totLen : UInt16
  id : UInt16
  fragOff : UInt16
  ttl : UInt8
  protocol : UInt8
  check : UInt16
  saddr : UInt32
  daddr : UInt32

/-- The bytes of the header in memory. -/
def Iphdr.bytes (e : Endian) (h : Iphdr) : List UInt8 :=
  [h.versionIhl, h.tos] ++ be16 h.totLen ++ be16 h.id ++ be16 h.fragOff ++ [h.ttl, h.protocol]
    ++ memU16 e h.check ++ be32 h.saddr ++ be32 h.daddr

/-- `struct tcphdr`. -/
structure Tcphdr where
  thSport : UInt16
  thDport : UInt16
  thSeq : UInt32
  thAck : UInt32
  /-- `th_off`, above the four bits of `th_x2` -/
  thOff : UInt8
  thFlags : UInt8
  thWin : UInt16
  thSum : UInt16
  thUrp : UInt16

/-- The bytes of the header in memory. -/
def Tcphdr.bytes (e : Endian) (h : Tcphdr) : List UInt8 :=
  be16 h.thSport ++ be16 h.thDport ++ be32 h.thSeq ++ be32 h.thAck ++ [h.thOff * 16, h.thFlags]
    ++ be16 h.thWin ++ memU16 e h.thSum ++ be16 h.thUrp

@[simp] theorem Iphdr.length_bytes (e : Endian) (h : Iphdr) :
    (h.bytes e).length = ipHdrSize := by
  cases e <;> rfl

@[simp] theorem Tcphdr.length_bytes (e : Endian) (h : Tcphdr) :
    (h.bytes e).length = tcpHdrSize := by
  cases e <;> rfl

/-! ## The conversions -/

/-- The fields of `conn_t` the conversions use. -/
structure Conn where
  ipAddr : UInt32
  port : Int
  /-- My initial sequence number. -/
  initSeqno : UInt32
  /-- Their initial sequence number. -/
  theirInitSeqno : UInt32

/-- The settings of the process: `config` and two flags. -/
structure Settings where
  ipAddr : UInt32
  port : Int
  runProgram : Bool
  unixSocket : Bool

/-- The ACK bit is added to all segments that go to the web. -/
def Settings.forcesAck (config : Settings) : Bool := !config.runProgram && !config.unixSocket

/-- `cksum_tcp(packet, len)`: the checksum of the pseudoheader, the TCP
header and `len` bytes of data. -/
def cksumTcp (e : Endian) (packet : List UInt8) (len : UInt16) : UInt16 :=
  cksum e (slice packet 12 4 ++ slice packet 16 4 ++ [0, ipprotoTcp]
    ++ be16 (UInt16.ofNat tcpHdrSize + len) ++ slice packet ipHdrSize (tcpHdrSize + len.toNat))

/-- The header `create_datagram` writes. -/
def datagramIphdr (e : Endian) (srcIp dstIp : UInt32) (len : UInt16) : Iphdr :=
  let ipHdr : Iphdr :=
    { versionIhl := 0x45, tos := 0, totLen := UInt16.ofNat ipHdrSize + len, id := ipId
      fragOff := 0, ttl := defaultTtl, protocol := ipprotoTcp, check := 0
      saddr := srcIp, daddr := dstIp }
  { ipHdr with check := cksum e (ipHdr.bytes e) }

/-- `create_datagram(src_ip, dst_ip, len)`. -/
def createDatagram (e : Endian) (srcIp dstIp : UInt32) (len : UInt16) : List UInt8 :=
  (datagramIphdr e srcIp dstIp len).bytes e ++ List.replicate len.toNat 0

/-- The TCP header `convert_to_datagram` writes, before its checksum. -/
def segmentTcphdr (config : Settings) (dst : Conn) (segment : CtcpSegment) : Tcphdr where
  thSport := UInt16.ofInt config.port
  thDport := UInt16.ofInt dst.port
  thSeq := segment.seqno + dst.initSeqno
  thAck := segment.ackno + dst.theirInitSeqno
  thOff := UInt8.ofNat (tcpHdrSize / 4)
  thFlags :=
    if config.forcesAck then segment.flags.toUInt8 ||| thAck.toUInt8 else segment.flags.toUInt8
  thWin := segment.window
  thSum := 0
  thUrp := 0

/-- `convert_to_datagram(dst, segment, len)`. -/
def convertToDatagram (e : Endian) (config : Settings) (dst : Conn) (segment : CtcpSegment)
    (len : Nat) : List UInt8 :=
  let tcpPktLen := UInt16.ofNat (len - segmentHdrSize + tcpHdrSize)
  let datagram := createDatagram e config.ipAddr dst.ipAddr tcpPktLen
  let dataLen := UInt16.ofNat (len - segmentHdrSize)
  let datagram :=
    if dataLen > 0 then
      put datagram (ipHdrSize + tcpHdrSize) (slice segment.data 0 dataLen.toNat)
    else datagram
  let tcpHdr := segmentTcphdr config dst segment
  let datagram := put datagram ipHdrSize (tcpHdr.bytes e)
  let correctSum := cksum e (slice ({ segment with cksum := 0 }.bytes e) 0 len)
  let thSum := cksumTcp e datagram dataLen + (correctSum - segment.cksum)
  put datagram ipHdrSize ({ tcpHdr with thSum }.bytes e)

/-- `convert_to_ctcp(src, datagram, actual_len)`; the code does not look at
`actual_len`. -/
def convertToCtcp (e : Endian) (src : Conn) (datagram : List UInt8) : CtcpSegment :=
  let dataLen := ofBe16 (slice datagram 2 2) - UInt16.ofNat (ipHdrSize + tcpHdrSize)
  let segment : CtcpSegment :=
    { seqno := ofBe32 (slice datagram (ipHdrSize + 4) 4) - src.theirInitSeqno
      ackno := ofBe32 (slice datagram (ipHdrSize + 8) 4) - src.initSeqno
      len := dataLen + UInt16.ofNat segmentHdrSize
      flags := (slice datagram (ipHdrSize + 13) 1).headD 0 |>.toUInt32
      window := ofBe16 (slice datagram (ipHdrSize + 14) 2)
      cksum := 0
      data := slice datagram (ipHdrSize + tcpHdrSize) dataLen.toNat }
  let sum := ofMem16 e (slice datagram (ipHdrSize + 16) 2)
  let correctSum := cksumTcp e (put datagram (ipHdrSize + 16) [0, 0]) dataLen
  { segment with cksum := cksum e (segment.bytes e) + (correctSum - sum) }

/-! ## The parts of a datagram -/

section Parts

variable (e : Endian) (ip : Iphdr) (tcp : Tcphdr) (data : List UInt8)

/-- The fields of a datagram stand where `convert_to_ctcp` looks for them. -/
theorem slice_totLen : slice (ip.bytes e ++ tcp.bytes e ++ data) 2 2 = be16 ip.totLen := by
  cases e <;> rfl

theorem slice_thSeq : slice (ip.bytes e ++ tcp.bytes e ++ data) 24 4 = be32 tcp.thSeq := by
  cases e <;> rfl

theorem slice_thAck : slice (ip.bytes e ++ tcp.bytes e ++ data) 28 4 = be32 tcp.thAck := by
  cases e <;> rfl

theorem slice_thFlags : slice (ip.bytes e ++ tcp.bytes e ++ data) 33 1 = [tcp.thFlags] := by
  cases e <;> rfl

theorem slice_thWin : slice (ip.bytes e ++ tcp.bytes e ++ data) 34 2 = be16 tcp.thWin := by
  cases e <;> rfl

theorem slice_thSum : slice (ip.bytes e ++ tcp.bytes e ++ data) 36 2 = memU16 e tcp.thSum := by
  cases e <;> rfl

theorem slice_payload (n : Nat) :
    slice (ip.bytes e ++ tcp.bytes e ++ data) 40 n = data.take n := by
  cases e <;> rfl

/-- The total length of a packet with `n` bytes of data. -/
theorem totLen_datagramIphdr (srcIp dstIp : UInt32) (n : Nat) :
    (datagramIphdr e srcIp dstIp (UInt16.ofNat n + UInt16.ofNat tcpHdrSize)).totLen =
      UInt16.ofNat (ipHdrSize + tcpHdrSize + n) := by
  simp only [datagramIphdr, ← UInt16.ofNat_add]
  congr 1
  omega

/-- Clearing `th_sum`. -/
theorem put_thSum_zero :
    put (ip.bytes e ++ tcp.bytes e ++ data) 36 [0, 0] =
      ip.bytes e ++ { tcp with thSum := 0 }.bytes e ++ data := by
  have zero : memU16 e 0 = [0, 0] := by cases e <;> decide
  rw [Tcphdr.bytes, Tcphdr.bytes, zero]
  cases e <;> rfl

end Parts

/-! ## The round trip -/

section RoundTrip

variable {e : Endian} {config : Settings} {src dst : Conn} {seg : CtcpSegment}

/-- The datagram of a whole segment is its three parts; its TCP checksum is
off by what the segment's checksum is off. -/
theorem convertToDatagram_eq (bound : seg.data.length ≤ maxSegDataSize) :
    let n := UInt16.ofNat seg.data.length
    let ip := datagramIphdr e config.ipAddr dst.ipAddr (n + UInt16.ofNat tcpHdrSize)
    let tcp := segmentTcphdr config dst seg
    convertToDatagram e config dst seg (segmentHdrSize + seg.data.length) =
      ip.bytes e ++
        { tcp with
          thSum := cksumTcp e (ip.bytes e ++ tcp.bytes e ++ seg.data) n +
            (seg.correctCksum e - seg.cksum) }.bytes e ++ seg.data := by
  intro n ip tcp
  have hn : n.toNat = seg.data.length := by
    have : seg.data.length ≤ 1440 := bound
    simp only [n, UInt16.toNat_ofNat']
    omega
  have whole : slice seg.data 0 seg.data.length = seg.data := by
    rw [slice, List.drop_zero, List.take_length]
  have empty : createDatagram e config.ipAddr dst.ipAddr (n + UInt16.ofNat tcpHdrSize) =
      ip.bytes e ++ List.replicate tcpHdrSize 0 ++ List.replicate seg.data.length 0 := by
    have hlen : (n + UInt16.ofNat tcpHdrSize).toNat = tcpHdrSize + seg.data.length := by
      have : seg.data.length ≤ 1440 := bound
      simp only [UInt16.toNat_add, UInt16.toNat_ofNat', tcpHdrSize, hn]
      omega
    rw [createDatagram, hlen, List.replicate_add, List.append_assoc]
  have filled : (if n > 0 then
      put (ip.bytes e ++ List.replicate tcpHdrSize 0 ++ List.replicate seg.data.length 0)
        (ipHdrSize + tcpHdrSize) (slice seg.data 0 n.toNat)
      else ip.bytes e ++ List.replicate tcpHdrSize 0 ++ List.replicate seg.data.length 0) =
      ip.bytes e ++ List.replicate tcpHdrSize 0 ++ seg.data := by
    rw [hn, whole]
    split
    · exact put_end (by simp) (by simp)
    · rename_i hzero
      have hnil : seg.data = [] := by
        rw [gt_iff_lt, UInt16.lt_iff_toNat_lt, hn] at hzero
        exact List.length_eq_zero_iff.mp (Nat.eq_zero_of_not_pos hzero)
      simp [hnil]
  have contents : slice ({ seg with cksum := 0 }.bytes e) 0 (segmentHdrSize + seg.data.length) =
      { seg with cksum := 0 }.bytes e := by
    rw [slice, List.drop_zero, ← CtcpSegment.length_bytes e { seg with cksum := 0 },
      List.take_length]
  have written : ∀ h : Tcphdr, put (ip.bytes e ++ List.replicate tcpHdrSize 0 ++ seg.data)
      ipHdrSize (h.bytes e) = ip.bytes e ++ h.bytes e ++ seg.data :=
    fun h => put_middle (by simp) (by simp)
  have rewritten : ∀ h h' : Tcphdr, put (ip.bytes e ++ h.bytes e ++ seg.data) ipHdrSize
      (h'.bytes e) = ip.bytes e ++ h'.bytes e ++ seg.data :=
    fun h h' => put_middle (by simp) (by simp)
  have size : UInt16.ofNat (seg.data.length + tcpHdrSize) = n + UInt16.ofNat tcpHdrSize :=
    UInt16.ofNat_add _ _
  simp only [convertToDatagram, Nat.add_sub_cancel_left, size, empty, contents]
  rw [filled, written, rewritten]
  rfl

/-- Reading a datagram back: every field as written, and the checksum off by
what the TCP checksum is off. -/
theorem convertToCtcp_eq {ip : Iphdr} {tcp : Tcphdr} {data : List UInt8} {sum : UInt16}
    (bound : data.length ≤ maxSegDataSize)
    (total : ip.totLen = UInt16.ofNat (ipHdrSize + tcpHdrSize + data.length))
    (zero : tcp.thSum = 0) :
    let n := UInt16.ofNat data.length
    let read : CtcpSegment :=
      { seqno := tcp.thSeq - src.theirInitSeqno
        ackno := tcp.thAck - src.initSeqno
        len := n + UInt16.ofNat segmentHdrSize
        flags := tcp.thFlags.toUInt32
        window := tcp.thWin
        cksum := 0
        data }
    convertToCtcp e src (ip.bytes e ++ { tcp with thSum := sum }.bytes e ++ data) =
      { read with
        cksum := read.correctCksum e +
          (cksumTcp e (ip.bytes e ++ tcp.bytes e ++ data) n - sum) } := by
  intro n read
  have hn : n.toNat = data.length := by
    have : data.length ≤ 1440 := bound
    simp only [n, UInt16.toNat_ofNat']
    omega
  have dataLen : ip.totLen - UInt16.ofNat (ipHdrSize + tcpHdrSize) = n := by
    rw [total, UInt16.ofNat_add, UInt16.add_comm, UInt16.add_sub_cancel]
  have cleared : { tcp with thSum := 0 } = tcp := by
    rw [← zero]
  simp only [convertToCtcp, ipHdrSize, tcpHdrSize, Nat.reduceAdd, slice_totLen, slice_thSeq,
    slice_thAck, slice_thFlags, slice_thWin, slice_thSum, slice_payload, put_thSum_zero,
    ofBe16_be16, ofBe32_be32, ofMem16_memU16, List.headD_cons]
  rw [ipHdrSize, tcpHdrSize] at dataLen
  simp only [dataLen, hn, List.take_length, cleared]
  rfl

/-- The flags byte of the TCP header holds all flags of the segment. -/
theorem thFlags_toUInt32 (flags : seg.flags < 256) :
    (segmentTcphdr config dst seg).thFlags.toUInt32 =
      if config.forcesAck then seg.flags ||| thAck else seg.flags := by
  have small : seg.flags.toUInt8.toUInt32 = seg.flags := by
    apply UInt32.toNat_inj.mp
    rw [UInt32.lt_iff_toNat_lt] at flags
    simp only [UInt8.toNat_toUInt32, UInt32.toNat_toUInt8]
    exact Nat.mod_eq_of_lt flags
  rw [segmentTcphdr]
  split
  · rw [UInt8.toUInt32_or, small]
    rfl
  · exact small

/-- What comes back: the flags may gain the ACK bit, and the checksum is off
by what the sent one was off. -/
theorem convert_eq (len : seg.len.toNat = segmentHdrSize + seg.data.length)
    (bound : seg.data.length ≤ maxSegDataSize) (flags : seg.flags < 256)
    (mirror : src.theirInitSeqno = dst.initSeqno ∧ src.initSeqno = dst.theirInitSeqno) :
    let read := { seg with flags := if config.forcesAck then seg.flags ||| thAck else seg.flags }
    convertToCtcp e src (convertToDatagram e config dst seg seg.len.toNat) =
      { read with cksum := read.correctCksum e - seg.correctCksum e + seg.cksum } := by
  intro read
  have hb : seg.data.length ≤ 1440 := bound
  have total := totLen_datagramIphdr e config.ipAddr dst.ipAddr seg.data.length
  have hlen : UInt16.ofNat seg.data.length + UInt16.ofNat segmentHdrSize = seg.len := by
    rw [← UInt16.ofNat_add, Nat.add_comm, ← len, UInt16.ofNat_toNat]
  rw [len, convertToDatagram_eq bound, convertToCtcp_eq bound total rfl, hlen,
    thFlags_toUInt32 flags, mirror.1, mirror.2]
  have cancel : ∀ a b c x : UInt16, a + (x - (x + (b - c))) = a - b + c := by
    intro a b c x
    grind
  simp only [segmentTcphdr, UInt32.add_sub_cancel, cancel]
  rfl

/-- **Round trip.** A segment comes back from its datagram as it was: every
header field, right or wrong checksum included, and every byte of its
payload. Where the ACK bit is forced, only that bit and the checksum differ,
and the checksum is right exactly if it was right. -/
theorem convert_round_trip (len : seg.len.toNat = segmentHdrSize + seg.data.length)
    (bound : seg.len ≤ 1460) (flags : seg.flags < 256)
    (mirror : src.theirInitSeqno = dst.initSeqno ∧ src.initSeqno = dst.theirInitSeqno) :
    let received := convertToCtcp e src (convertToDatagram e config dst seg seg.len.toNat)
    (config.forcesAck = false ∨ seg.hasFlag thAck → received = seg) ∧
    (config.forcesAck = true →
      received = { seg with flags := seg.flags ||| thAck, cksum := received.cksum } ∧
      (received.cksum = received.correctCksum e ↔ seg.cksum = seg.correctCksum e)) := by
  intro received
  have hb : seg.data.length ≤ maxSegDataSize := by
    rw [UInt16.le_iff_toNat_le, len] at bound
    simp only [segmentHdrSize, UInt16.reduceToNat] at bound
    simp only [maxSegDataSize]
    omega
  have hr : received = _ := convert_eq len hb flags mirror
  refine ⟨fun h => ?_, fun forced => ?_⟩
  · have same : (if config.forcesAck then seg.flags ||| thAck else seg.flags) = seg.flags := by
      split
      · rename_i forced
        exact (h.resolve_left (by simp [forced])).or_eq
      · rfl
    rw [hr, same, UInt16.sub_self, UInt16.zero_add]
  · rw [hr, if_pos forced]
    refine ⟨rfl, ?_⟩
    have shift : ∀ x y c : UInt16, x - y + c = x ↔ c = y := by
      intro x y c
      constructor <;> intro h <;> grind
    exact shift _ _ _

end RoundTrip

/-- A segment with a wrong checksum, sent to the web. -/
theorem convert_round_trip_forced :
    let seg : CtcpSegment := ⟨5, 7, 23, thFin, 1440, 0xbeef, [97, 98, 99]⟩
    let config : Settings := ⟨0x0a000001, 9999, false, false⟩
    let dst : Conn := ⟨0x0a000002, 80, 1000, 4294967290⟩
    let src : Conn := ⟨0x0a000001, 9999, 4294967290, 1000⟩
    let received := convertToCtcp .little src
      (convertToDatagram .little config dst seg seg.len.toNat)
    (config.forcesAck = false ∨ seg.hasFlag thAck → received = seg) ∧
    (config.forcesAck = true →
      received = { seg with flags := seg.flags ||| thAck, cksum := received.cksum } ∧
      (received.cksum = received.correctCksum .little ↔
        seg.cksum = seg.correctCksum .little)) :=
  convert_round_trip rfl (by decide) (by decide) ⟨rfl, rfl⟩

end NetLabs.Ctcp
