/-
NetLabs.Ctcp.DatagramBounds — `convert_to_ctcp` with every access checked.

The sizes come from the total length in the IP header, by two subtractions in
16 bits, and the length of what was received is a parameter nobody reads. A
total length between 40 and the received length is harmless
(`exact_convertToCtcp`). One above it sends `memcpy` over the end of the
datagram; so does one below 20, where both sizes wrap around; from 20 to 39
only the second comes back, and the segment has no room for its header.

`convertToCtcpChecked` works on the bytes of the blocks it allocates. The
received bytes are the buffer, whatever stands behind them. It writes to the
datagram as well: it clears the TCP checksum while it adds up.
-/
import NetLabs.Lib.Access
import NetLabs.Ctcp.MainLoop

namespace NetLabs.Ctcp

open NetLabs.Lib NetLabs.Lib.Access

/-! ## The checked conversion -/

/-- `TCP_PSEUDOHDR_SIZE`: two addresses, a zero, the protocol, a length and
the TCP header. -/
def tcpPseudohdrSize : Nat := 12 + tcpHdrSize

/-- `cksum_tcp(packet, len)`. -/
def cksumTcpChecked (e : Endian) (packet : List UInt8) (len : UInt16) : Access UInt16 := do
  let phdr := List.replicate (tcpPseudohdrSize + len.toNat) 0
  let phdr ← write phdr 0 (← Access.bytes packet 12 4)
  let phdr ← write phdr 4 (← Access.bytes packet 16 4)
  let phdr ← write phdr 9 [ipprotoTcp]
  let phdr ← write phdr 10 (be16 (UInt16.ofNat tcpHdrSize + len))
  let phdr ← write phdr 12 (← Access.bytes packet ipHdrSize (tcpHdrSize + len.toNat))
  return cksum e (← Access.bytes phdr 0 (len + UInt16.ofNat tcpPseudohdrSize).toNat)

/-- "Set fields of cTCP segment." -/
def setFields (e : Endian) (src : Conn) (datagram : List UInt8) (len : UInt16)
    (segment : List UInt8) : Access (List UInt8) := do
  let thSeq ← Access.bytes datagram (ipHdrSize + 4) 4
  let segment ← write segment 0 (be32 (ofBe32 thSeq - src.theirInitSeqno))
  let thAck ← Access.bytes datagram (ipHdrSize + 8) 4
  let segment ← write segment 4 (be32 (ofBe32 thAck - src.initSeqno))
  let segment ← write segment 8 (be16 len)
  let thFlags ← Access.bytes datagram (ipHdrSize + 13) 1
  let segment ← write segment 12 (memU32 e (thFlags.headD 0).toUInt32)
  let thWin ← Access.bytes datagram (ipHdrSize + 14) 2
  let segment ← write segment 16 (be16 (ofBe16 thWin))
  write segment 18 (memU16 e 0)

/-- `memcpy(segment->data, payload, data_len)`, where there is data. -/
def copyPayload (datagram segment : List UInt8) (dataLen : UInt16) : Access (List UInt8) :=
  if dataLen > 0 then do
    write segment segmentHdrSize (← Access.bytes datagram (ipHdrSize + tcpHdrSize) dataLen.toNat)
  else .ok segment

/-- What the conversion leaves: the segment, the datagram and the number of
payload bytes copied. -/
structure Converted where
  segment : List UInt8
  datagram : List UInt8
  copied : Nat

/-- `convert_to_ctcp(src, datagram, actual_len)`. -/
def convertToCtcpChecked (e : Endian) (src : Conn) (datagram : List UInt8) :
    Access Converted := do
  let totLen ← Access.bytes datagram 2 2
  let dataLen := ofBe16 totLen - UInt16.ofNat (ipHdrSize + tcpHdrSize)
  let len := dataLen + UInt16.ofNat segmentHdrSize
  let segment := List.replicate len.toNat 0
  let segment ← setFields e src datagram len segment
  let segment ← copyPayload datagram segment dataLen
  let sum ← Access.bytes segment 0 len.toNat
  let segment ← write segment 18 (memU16 e (cksum e sum))
  let thSum ← Access.bytes datagram (ipHdrSize + 16) 2
  let datagram ← write datagram (ipHdrSize + 16) [0, 0]
  let correctSum ← cksumTcpChecked e datagram dataLen
  let sum ← Access.bytes segment 18 2
  let segment ← write segment 18 (memU16 e (ofMem16 e sum + (correctSum - ofMem16 e thSum)))
  return ⟨segment, datagram, dataLen.toNat⟩

/-! ## The header of the segment -/

section Header

variable (e : Endian) (s : CtcpSegment)

/-- Writing a field of a segment in memory. -/
theorem put_seqno (x : UInt32) :
    put (s.bytes e) 0 (be32 x) = { s with seqno := x }.bytes e := by
  cases e <;> rfl

theorem put_ackno (x : UInt32) :
    put (s.bytes e) 4 (be32 x) = { s with ackno := x }.bytes e := by
  cases e <;> rfl

theorem put_len (x : UInt16) : put (s.bytes e) 8 (be16 x) = { s with len := x }.bytes e := by
  cases e <;> rfl

theorem put_flags (x : UInt32) :
    put (s.bytes e) 12 (memU32 e x) = { s with flags := x }.bytes e := by
  cases e <;> rfl

theorem put_window (x : UInt16) :
    put (s.bytes e) 16 (be16 x) = { s with window := x }.bytes e := by
  cases e <;> rfl

theorem put_cksum (x : UInt16) :
    put (s.bytes e) 18 (memU16 e x) = { s with cksum := x }.bytes e := by
  cases e <;> rfl

/-- The checksum of a segment is always in bounds. -/
theorem write_cksum (x : UInt16) :
    write (s.bytes e) 18 (memU16 e x) = .ok ({ s with cksum := x }.bytes e) := by
  have fits : 18 + (memU16 e x).length ≤ (s.bytes e).length := by
    rw [length_memU16, CtcpSegment.length_bytes, segmentHdrSize]
    exact Nat.le_add_right _ _
  rw [write_inside fits, put_cksum]

theorem bytes_cksum : Access.bytes (s.bytes e) 18 2 = .ok (memU16 e s.cksum) := by
  have fits : 18 + 2 ≤ (s.bytes e).length := by
    rw [CtcpSegment.length_bytes, segmentHdrSize]
    exact Nat.le_add_right _ _
  rw [bytes_inside fits]
  cases e <;> rfl

theorem bytes_whole {n : Nat} (size : n = segmentHdrSize + s.data.length) :
    Access.bytes (s.bytes e) 0 n = .ok (s.bytes e) := by
  rw [← CtcpSegment.length_bytes e s] at size
  rw [bytes_inside (by omega), slice, List.drop_zero, size, List.take_length]

theorem put_data {x : List UInt8} (size : x.length = s.data.length) :
    put (s.bytes e) segmentHdrSize x = { s with data := x }.bytes e := by
  have header : segmentHdrSize = (({ s with data := [] } : CtcpSegment).bytes e).length := by
    rw [CtcpSegment.length_bytes]
    rfl
  have parts : ∀ d, ({ s with data := d } : CtcpSegment).bytes e =
      ({ s with data := [] } : CtcpSegment).bytes e ++ d := by
    intro d
    simp [CtcpSegment.bytes]
  rw [show s = { s with data := s.data } from rfl, parts s.data, parts x, put_end header size]

theorem slice_len : slice (s.bytes e) 8 2 = be16 s.len := by
  cases e <;> rfl

theorem drop_header : (s.bytes e).drop segmentHdrSize = s.data := by
  cases e <;> rfl

/-- What `calloc` returns. -/
theorem replicate_eq (k : Nat) :
    List.replicate (segmentHdrSize + k) 0 =
      (⟨0, 0, 0, 0, 0, 0, List.replicate k 0⟩ : CtcpSegment).bytes e := by
  have header : List.replicate segmentHdrSize 0 =
      (⟨0, 0, 0, 0, 0, 0, []⟩ : CtcpSegment).bytes e := by
    cases e <;> decide
  rw [List.replicate_add, header]
  simp [CtcpSegment.bytes]

end Header

/-- The fields as they are set first. -/
def headerOf (src : Conn) (datagram : List UInt8) (len : UInt16) (data : List UInt8) :
    CtcpSegment where
  seqno := ofBe32 (slice datagram (ipHdrSize + 4) 4) - src.theirInitSeqno
  ackno := ofBe32 (slice datagram (ipHdrSize + 8) 4) - src.initSeqno
  len
  flags := ((slice datagram (ipHdrSize + 13) 1).headD 0).toUInt32
  window := ofBe16 (slice datagram (ipHdrSize + 14) 2)
  cksum := 0
  data

/-- The writes that set them. -/
def headerFields (e : Endian) (s : CtcpSegment) : List (Nat × List UInt8) :=
  [(0, be32 s.seqno), (4, be32 s.ackno), (8, be16 s.len), (12, memU32 e s.flags),
    (16, be16 s.window), (18, memU16 e s.cksum)]

theorem setFields_eq (e : Endian) (src : Conn) {datagram : List UInt8} (len : UInt16)
    (room : fullHdrSize ≤ datagram.length) (segment data : List UInt8) :
    setFields e src datagram len segment =
      (headerFields e (headerOf src datagram len data)).foldlM
        (fun buf w => write buf w.1 w.2) segment := by
  have read : ∀ {off m : Nat}, ipHdrSize + off + m ≤ fullHdrSize →
      Access.bytes datagram (ipHdrSize + off) m = .ok (slice datagram (ipHdrSize + off) m) :=
    fun fits => bytes_inside (Nat.le_trans fits room)
  simp (disch := decide) only [setFields, read, ok_bind]
  simp only [headerFields, headerOf, List.foldlM_cons, List.foldlM_nil, bind_pure]

/-- The header is written in bounds if the segment has room for it. -/
theorem exact_setFields (e : Endian) (src : Conn) {datagram : List UInt8} (len : UInt16)
    (room : fullHdrSize ≤ datagram.length) (n : Nat) :
    Exact (segmentHdrSize ≤ n) (setFields e src datagram len (List.replicate n 0))
      (some ((headerOf src datagram len (List.replicate (n - segmentHdrSize) 0)).bytes e)) := by
  have nonempty : ∀ w ∈ headerFields e (headerOf src datagram len []), w.2.length ≠ 0 := by
    simp [headerFields, -List.length_eq_zero_iff]
  rw [setFields_eq e src len room _ []]
  refine ((exact_writes nonempty _).congr ?_).value fun fits => ?_
  · simp only [headerFields, List.forall_mem_cons, List.not_mem_nil, false_imp_iff, implies_true,
      length_be32, length_be16, length_memU32, length_memU16, List.length_replicate,
      and_true, segmentHdrSize]
    omega
  · obtain ⟨k, rfl⟩ := Nat.exists_eq_add_of_le fits
    rw [replicate_eq e, Nat.add_sub_cancel_left]
    simp only [headerFields, List.foldl_cons, List.foldl_nil, put_seqno, put_ackno, put_len,
      put_flags, put_window, put_cksum]
    rfl

/-! ## The checksums -/

/-- The writes that set the pseudoheader. -/
def phdrFields (packet : List UInt8) (len : UInt16) : List (Nat × List UInt8) :=
  [(0, slice packet 12 4), (4, slice packet 16 4), (9, [ipprotoTcp]),
    (10, be16 (UInt16.ofNat tcpHdrSize + len))]

theorem cksumTcpChecked_eq (e : Endian) {packet : List UInt8} (len : UInt16)
    (room : fullHdrSize ≤ packet.length) :
    cksumTcpChecked e packet len = (do
      let phdr ← (phdrFields packet len).foldlM (fun buf w => write buf w.1 w.2)
        (List.replicate (tcpPseudohdrSize + len.toNat) 0)
      let phdr ← write phdr 12 (← Access.bytes packet ipHdrSize (tcpHdrSize + len.toNat))
      return cksum e (← Access.bytes phdr 0 (len + UInt16.ofNat tcpPseudohdrSize).toNat)) := by
  have read : ∀ {off m : Nat}, off + m ≤ fullHdrSize →
      Access.bytes packet off m = .ok (slice packet off m) :=
    fun fits => bytes_inside (Nat.le_trans fits room)
  simp (disch := decide) only [cksumTcpChecked, read, ok_bind]
  simp only [phdrFields, List.foldlM_cons, List.foldlM_nil, bind_assoc, bind_pure]

section Pseudoheader

variable {packet : List UInt8} (len : UInt16)

theorem length_addresses (room : fullHdrSize ≤ packet.length) :
    (slice packet 12 4).length = 4 ∧ (slice packet 16 4).length = 4 :=
  ⟨length_slice (Nat.le_trans (by decide) room), length_slice (Nat.le_trans (by decide) room)⟩

/-- The fields of the pseudoheader stay in front of the TCP header. -/
theorem phdrFields_fit (room : fullHdrSize ≤ packet.length) :
    ∀ w ∈ phdrFields packet len, w.2.length ≠ 0 ∧ w.1 + w.2.length ≤ 12 := by
  obtain ⟨saddr, daddr⟩ := length_addresses room
  simp only [phdrFields, List.forall_mem_cons, saddr, daddr, List.length_singleton, length_be16]
  decide

/-- The pseudoheader in memory. -/
theorem put_phdr (room : fullHdrSize ≤ packet.length) {data : List UInt8}
    (size : data.length = tcpHdrSize + len.toNat) :
    put ((phdrFields packet len).foldl (fun buf w => put buf w.1 w.2)
        (List.replicate (tcpPseudohdrSize + len.toNat) 0)) 12 data =
      slice packet 12 4 ++ slice packet 16 4 ++ [0, ipprotoTcp]
        ++ be16 (UInt16.ofNat tcpHdrSize + len) ++ data := by
  obtain ⟨saddr, daddr⟩ := length_addresses room
  have block : List.replicate (tcpPseudohdrSize + len.toNat) (0 : UInt8) =
      List.replicate 12 0 ++ List.replicate (tcpHdrSize + len.toNat) 0 := by
    rw [← List.replicate_add, tcpPseudohdrSize, Nat.add_assoc]
  rw [phdrFields, block]
  obtain ⟨a, b, c, d, saddr⟩ := List.length_eq_four.mp saddr
  obtain ⟨a', b', c', d', daddr⟩ := List.length_eq_four.mp daddr
  rw [saddr, daddr]
  have start : 12 = ([a, b, c, d, a', b', c', d', 0, ipprotoTcp] ++
      be16 (UInt16.ofNat tcpHdrSize + len)).length := rfl
  have rest : data.length = (List.replicate (tcpHdrSize + len.toNat) (0 : UInt8)).length := by
    rw [List.length_replicate, size]
  exact put_end start rest

/-- `cksum_tcp` reads the TCP header and `len` bytes behind it. -/
theorem exact_cksumTcp (e : Endian) (room : fullHdrSize ≤ packet.length)
    (short : packet.length < 65536) :
    Exact (fullHdrSize + len.toNat ≤ packet.length) (cksumTcpChecked e packet len)
      (some (cksumTcp e packet len)) := by
  have fit : ∀ w ∈ phdrFields packet len, w.1 + w.2.length ≤
      (List.replicate (tcpPseudohdrSize + len.toNat) (0 : UInt8)).length := by
    intro w hw
    rw [List.length_replicate, tcpPseudohdrSize, Nat.add_assoc]
    exact Nat.le_trans (phdrFields_fit len room w hw).2 (Nat.le_add_right _ _)
  have fields := exact_writes (fun w hw => (phdrFields_fit len room w hw).1)
    (List.replicate (tcpPseudohdrSize + len.toNat) 0)
  rw [cksumTcpChecked_eq e len room, fields.ends fit, deref_some, ok_bind, fullHdrSize,
    Nat.add_assoc]
  constructor
  · intro inside
    have size : (slice packet ipHdrSize (tcpHdrSize + len.toNat)).length =
        tcpHdrSize + len.toNat := length_slice inside
    have block : 12 + (slice packet ipHdrSize (tcpHdrSize + len.toNat)).length ≤
        ((phdrFields packet len).foldl (fun buf w => put buf w.1 w.2)
          (List.replicate (tcpPseudohdrSize + len.toNat) 0)).length := by
      rw [length_puts fit, size, List.length_replicate, tcpPseudohdrSize, Nat.add_assoc]
    have total : (len + UInt16.ofNat tcpPseudohdrSize).toNat = tcpPseudohdrSize + len.toNat := by
      rw [ipHdrSize, tcpHdrSize] at inside
      rw [UInt16.toNat_add, UInt16.toNat_ofNat', tcpPseudohdrSize, tcpHdrSize]
      omega
    have length := length_put block
    rw [put_phdr len room size, length_puts fit, List.length_replicate, ← total] at length
    rw [bytes_inside inside, ok_bind, write_inside block, ok_bind, put_phdr len room size,
      bytes_inside (by rw [length, Nat.zero_add]), ok_bind, slice, List.drop_zero, ← length,
      List.take_length]
    rfl
  · intro out
    rw [exact_bytes.stops fun h => out (h.resolve_left (by simp [tcpHdrSize]))]
    rfl

end Pseudoheader

/-! ## The whole conversion -/

section Whole

variable (e : Endian) (src : Conn) {datagram : List UInt8}

/-- The sizes computed from a total length of at least 40. -/
theorem sizes_of_le {totLen : UInt16} (fits : fullHdrSize ≤ totLen.toNat) :
    (totLen - UInt16.ofNat (ipHdrSize + tcpHdrSize)).toNat = totLen.toNat - fullHdrSize ∧
    (totLen - UInt16.ofNat (ipHdrSize + tcpHdrSize) + UInt16.ofNat segmentHdrSize).toNat =
      segmentHdrSize + (totLen.toNat - fullHdrSize) := by
  have high := totLen.toNat_lt
  simp only [fullHdrSize, ipHdrSize, tcpHdrSize, segmentHdrSize, UInt16.toNat_add,
    UInt16.toNat_sub, UInt16.toNat_ofNat'] at fits ⊢
  omega

/-- For any other total length, if the segment has room for its header, the
payload ends behind the datagram. -/
theorem payload_out {totLen : UInt16} {received : Nat} (short : received < 65536)
    (out : ¬ (fullHdrSize ≤ totLen.toNat ∧ totLen.toNat ≤ received))
    (header : segmentHdrSize ≤
      (totLen - UInt16.ofNat (ipHdrSize + tcpHdrSize) + UInt16.ofNat segmentHdrSize).toNat) :
    (totLen - UInt16.ofNat (ipHdrSize + tcpHdrSize) + UInt16.ofNat segmentHdrSize).toNat =
        segmentHdrSize + (totLen - UInt16.ofNat (ipHdrSize + tcpHdrSize)).toNat ∧
      ¬ ipHdrSize + tcpHdrSize + (totLen - UInt16.ofNat (ipHdrSize + tcpHdrSize)).toNat ≤
        received := by
  have high := totLen.toNat_lt
  simp only [fullHdrSize, ipHdrSize, tcpHdrSize, segmentHdrSize, UInt16.toNat_add,
    UInt16.toNat_sub, UInt16.toNat_ofNat'] at out header ⊢
  omega

/-- The payload is copied in bounds if the datagram has it all. -/
theorem exact_copyPayload (room : fullHdrSize ≤ datagram.length) (len n : UInt16) :
    Exact (ipHdrSize + tcpHdrSize + n.toNat ≤ datagram.length)
      (copyPayload datagram ((headerOf src datagram len (List.replicate n.toNat 0)).bytes e) n)
      (some ((headerOf src datagram len
        (slice datagram (ipHdrSize + tcpHdrSize) n.toNat)).bytes e)) := by
  unfold copyPayload
  split
  · rename_i some
    have pos : 0 < n.toNat := UInt16.lt_iff_toNat_lt.mp some
    refine ⟨fun inside => ?_, fun out => ?_⟩
    · have size := length_slice inside
      have fits : segmentHdrSize + (slice datagram (ipHdrSize + tcpHdrSize) n.toNat).length ≤
          ((headerOf src datagram len (List.replicate n.toNat 0)).bytes e).length := by
        rw [CtcpSegment.length_bytes, size, headerOf, List.length_replicate]
      rw [bytes_inside inside, ok_bind, write_inside fits, put_data]
      · rfl
      · rw [size, headerOf, List.length_replicate]
    · rw [exact_bytes.stops (by omega)]
      rfl
  · rename_i none
    have zero : n = 0 := by
      rw [gt_iff_lt, UInt16.lt_iff_toNat_lt] at none
      exact UInt16.toNat_inj.mp (Nat.eq_zero_of_not_pos none)
    subst zero
    exact (exact_ok _).congr (iff_of_true room trivial)

/-- The conversion stays in its buffers exactly if the total length is at
least 40 and at most the received length. Then it returns the segment of
`convertToCtcp`. -/
theorem exact_convertToCtcp (room : fullHdrSize ≤ datagram.length)
    (short : datagram.length < 65536) :
    Exact (fullHdrSize ≤ (ofBe16 (slice datagram 2 2)).toNat ∧
        (ofBe16 (slice datagram 2 2)).toNat ≤ datagram.length)
      (convertToCtcpChecked e src datagram)
      (some ⟨(convertToCtcp e src datagram).bytes e, put datagram (ipHdrSize + 16) [0, 0],
        (ofBe16 (slice datagram 2 2) - UInt16.ofNat (ipHdrSize + tcpHdrSize)).toNat⟩) := by
  have read : ∀ {off m : Nat}, off + m ≤ fullHdrSize →
      Access.bytes datagram off m = .ok (slice datagram off m) :=
    fun fits => bytes_inside (Nat.le_trans fits room)
  have clear : ipHdrSize + 16 + [(0 : UInt8), 0].length ≤ datagram.length :=
    Nat.le_trans (by decide) room
  rw [convertToCtcpChecked, read (by decide), ok_bind]
  dsimp only
  constructor
  · rintro ⟨low, high⟩
    obtain ⟨dataLen, len⟩ := sizes_of_le low
    have inside : ipHdrSize + tcpHdrSize +
        (ofBe16 (slice datagram 2 2) - UInt16.ofNat (ipHdrSize + tcpHdrSize)).toNat ≤
          datagram.length := by
      rw [dataLen]
      change fullHdrSize + _ ≤ _
      omega
    rw [(exact_setFields e src _ room _).ends (by rw [len]; exact Nat.le_add_right _ _), deref_some,
      ok_bind, len, Nat.add_sub_cancel_left, ← dataLen,
      (exact_copyPayload e src room _ _).ends inside, deref_some, ok_bind,
      bytes_whole e _ (by rw [headerOf, length_slice inside]), ok_bind, write_cksum, ok_bind,
      read (by decide), ok_bind, write_inside clear, ok_bind,
      (exact_cksumTcp _ e (by rwa [length_put clear]) (by rwa [length_put clear])).ends
        (by rwa [length_put clear]), deref_some, ok_bind, bytes_cksum, ok_bind, write_cksum,
      ok_bind, ofMem16_memU16]
    rfl
  · intro out
    by_cases header : segmentHdrSize ≤ (ofBe16 (slice datagram 2 2) -
        UInt16.ofNat (ipHdrSize + tcpHdrSize) + UInt16.ofNat segmentHdrSize).toNat
    · obtain ⟨len, past⟩ := payload_out short out header
      rw [(exact_setFields e src _ room _).ends header, deref_some, ok_bind, len,
        Nat.add_sub_cancel_left, (exact_copyPayload e src room _ _).stops past]
      rfl
    · rw [(exact_setFields e src _ room _).stops header]
      rfl

end Whole

/-! ## What is received -/

/-- A packet `recv_filter` accepts for a connection is at least 40 bytes
long. -/
theorem recvFilter_room {h : Host} {connections : List Connection} {buf : List UInt8} {len : Nat}
    {c : Connection} (accepted : h.recvFilter connections buf = .ok (len, some c)) :
    fullHdrSize ≤ buf.length := by
  by_contra short
  rw [Host.recvFilter, if_pos (Nat.lt_of_not_le short)] at accepted
  simp at accepted

/-- **Only what was received.** For a datagram that `recv_filter` accepts,
`convert_to_ctcp` stays within the received bytes and within the blocks it
allocates, and returns a segment whose `len` counts the payload bytes copied
and leaves the datagram alone but for its TCP checksum, exactly if the total
length in the IP header is at least 40 and at most the received length. -/
theorem received_only_iff {h : Host} {connections : List Connection} {buf : List UInt8} {len : Nat}
    {c : Connection} (e : Endian) (received : buf.length ≤ 1480)
    (accepted : h.recvFilter connections buf = .ok (len, some c)) :
    (∃ r, convertToCtcpChecked e c.conn buf = .ok r ∧
        (ofBe16 (slice r.segment 8 2)).toNat = segmentHdrSize + r.copied ∧
        r.segment.drop segmentHdrSize = slice buf fullHdrSize r.copied ∧
        r.datagram = put buf (ipHdrSize + 16) [0, 0]) ↔
      fullHdrSize ≤ (ofBe16 (slice buf 2 2)).toNat ∧
        (ofBe16 (slice buf 2 2)).toNat ≤ buf.length := by
  have room := recvFilter_room accepted
  have short : buf.length < 65536 := by omega
  have exact := exact_convertToCtcp e c.conn room short
  constructor
  · rintro ⟨r, run, -⟩
    exact exact.inBounds_iff.mp (by rw [run]; exact nofun)
  · intro safe
    obtain ⟨dataLen, len⟩ := sizes_of_le safe.1
    refine ⟨_, exact.ends safe, ?_, drop_header e _, rfl⟩
    rw [slice_len, ofBe16_be16, dataLen]
    exact len

/-- An acknowledgment with one byte of data, which states a total length. -/
def oneByte (totLen : UInt8) : List UInt8 :=
  [0x45, 0, 0, totLen] ++ List.replicate 16 0 ++
    [0, 1, 0, 80, 0, 0, 0, 1, 0, 0, 0, 1, 0x50, 0x10, 5, 0xa0, 0, 0, 0, 0, 97]

/-- A connection with its sender. -/
def oneByteConn : Connection :=
  ⟨0, ⟨0, 1, 0, 0⟩, .fresh (.plain .little), false, false⟩

theorem received_only_iff_honest :
    (∃ r, convertToCtcpChecked .little oneByteConn.conn (oneByte 41) = .ok r ∧
        (ofBe16 (slice r.segment 8 2)).toNat = segmentHdrSize + r.copied ∧
        r.segment.drop segmentHdrSize = slice (oneByte 41) fullHdrSize r.copied ∧
        r.datagram = put (oneByte 41) (ipHdrSize + 16) [0, 0]) ↔
      fullHdrSize ≤ (ofBe16 (slice (oneByte 41) 2 2)).toNat ∧
        (ofBe16 (slice (oneByte 41) 2 2)).toNat ≤ (oneByte 41).length :=
  have accepted : (Host.plain true).recvFilter [oneByteConn] (oneByte 41) =
      .ok (41, some oneByteConn) := rfl
  received_only_iff .little (by decide) accepted

/-- 41 bytes are received, and the IP header says that there are 60. -/
theorem reads_past_the_datagram :
    ¬ ∀ (h : Host) (connections : List Connection) (buf : List UInt8) (len : Nat) (c : Connection)
      (e : Endian), fullHdrSize ≤ buf.length → buf.length ≤ 1480 →
        h.recvFilter connections buf = .ok (len, some c) →
        convertToCtcpChecked e c.conn buf ≠ .error .outOfBounds := by
  intro general
  exact general (.plain true) [oneByteConn] (oneByte 60) 41 oneByteConn .little (by decide)
    (by decide) rfl
    ((exact_convertToCtcp .little oneByteConn.conn (by decide) (by decide)).stops (by decide))

end NetLabs.Ctcp
