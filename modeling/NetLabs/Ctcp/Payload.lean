/-
NetLabs.Ctcp.Payload — does the payload of a segment reach `conn_output`, and
as it is?

`ctcp_receive` gets to the payload only if no turn of its ACK loop leaves. It
then copies `data_len` bytes with `strncpy` into a block of
`MAX_SEG_DATA_SIZE`, and `data_len` comes from the length field of the segment.
What is put out is the payload exactly if the segment gets there and is no
duplicate, its length field is true, and nothing but NULs follows a NUL
(`outputs_eq_iff`). Whatever the estimates of congestion control are, the
segment gets there exactly if its ACK part does not come to the two `return`s
(`payload_passes_iff`).
-/
import NetLabs.Ctcp.AckReturns
import NetLabs.Ctcp.Datagram
import NetLabs.Ctcp.Segmentation
import NetLabs.Ctcp.Validity

namespace NetLabs.Ctcp

open NetLabs.Lib CtcpState

variable {env : Env} {s : CtcpState} {seg : CtcpSegment}

/-! ## What is put out -/

/-- What `ctcp_receive` gives to `conn_output` for a segment. -/
def CtcpState.outputs (env : Env) (s : CtcpState) (seg : CtcpSegment) : List UInt8 :=
  if s.ReachesData env seg ∧ ¬ s.isDuplicate seg ∧ segmentHdrSize < seg.len.toNat then
    strncpy (dataBytes env seg (dataLen seg).toNat)
  else []

theorem processData_delivered (env : Env) (s : CtcpState) (seg : CtcpSegment) :
    (s.processData env seg).delivered = s.delivered ++
      (if ¬ s.isDuplicate seg ∧ segmentHdrSize < seg.len.toNat then
        strncpy (dataBytes env seg (dataLen seg).toNat)
      else []) := by
  have recorded : (s.recordSeqno seg).delivered = s.delivered := rfl
  rw [processData]
  by_cases accepted : ¬ s.isDuplicate seg ∧ segmentHdrSize < seg.len.toNat
  · have answered : ((s.recordSeqno seg).sendSegment env [] thAck.toNat false).delivered =
        s.delivered :=
      (micro_sameReceiver (.control (s.recordSeqno seg) thAck.toNat)).delivered
    rw [if_pos accepted.symm, if_pos accepted, delivered_log, answered, Event.outputData]
  · rw [if_neg fun h => accepted h.symm, if_neg accepted, List.append_nil]
    exact recorded

theorem receive_delivered (env : Env) (s : CtcpState) (seg : CtcpSegment) :
    (s.receive env seg).delivered = s.delivered ++ s.outputs env seg := by
  have part := sends_sameReceiver (ackPart_sends env s seg)
  rw [outputs]
  by_cases data : s.ReachesData env seg
  · rw [receive_data data, processData_delivered, part.delivered]
    simp only [part.isDuplicate_iff seg, data, true_and]
  · rw [if_neg fun h => data h.1, List.append_nil]
    obtain ⟨-, trace | ⟨position, c, -, trace⟩⟩ := receive_no_data data
    · rw [delivered, trace]
      exact part.delivered
    · rw [delivered, trace, List.flatMap_append]
      exact (List.append_nil _).trans part.delivered

/-- The payload is put out as it is exactly if the segment gets to the data
part and is accepted there, its length field is true, and `strncpy` copies
all of it. -/
theorem outputs_eq_iff (nonempty : seg.data ≠ []) :
    s.outputs env seg = seg.data ↔
      s.ReachesData env seg ∧ ¬ s.isDuplicate seg ∧
        seg.len.toNat = segmentHdrSize + seg.data.length ∧ NulTail seg.data := by
  have size : 0 < seg.data.length := List.length_pos_iff.mpr nonempty
  rw [outputs]
  by_cases accepted : s.ReachesData env seg ∧ ¬ s.isDuplicate seg ∧ segmentHdrSize < seg.len.toNat
  · obtain ⟨data, fresh, long⟩ := accepted
    rw [if_pos ⟨data, fresh, long⟩]
    constructor
    · intro same
      have len : seg.len.toNat = segmentHdrSize + seg.data.length := by
        have length := congrArg List.length same
        rw [length_strncpy, dataBytes, List.length_map, List.length_range, dataLen] at length
        omega
      rw [dataBytes_eq len] at same
      exact ⟨data, fresh, len, (strncpy_eq_iff seg.data).mp same⟩
    · rintro ⟨-, -, len, tail⟩
      rw [dataBytes_eq len]
      exact (strncpy_eq_iff seg.data).mpr tail
  · rw [if_neg accepted]
    refine iff_of_false nonempty.symm ?_
    rintro ⟨data, fresh, len, -⟩
    exact accepted ⟨data, fresh, by omega⟩

/-! ## The copy -/

/-- The payload is put out as it is, and the copy stays in its block. -/
structure CopiesPayload (env : Env) (s : CtcpState) (seg : CtcpSegment) : Prop where
  fits : CopyFits seg
  output : (s.receive env seg).delivered = s.delivered ++ seg.data

/-- The copy stays in its block where the length field is true exactly if there
is room for the payload. -/
theorem copyFits_iff (len : seg.len.toNat = segmentHdrSize + seg.data.length) :
    CopyFits seg ↔ seg.data.length ≤ maxSegDataSize := by
  rw [CopyFits, dataLen, len]
  omega

theorem copiesPayload_split :
    CopiesPayload env s seg ↔ CopyFits seg ∧ s.outputs env seg = seg.data := by
  constructor
  · rintro ⟨fits, output⟩
    rw [receive_delivered, List.append_cancel_left_eq] at output
    exact ⟨fits, output⟩
  · rintro ⟨fits, output⟩
    exact ⟨fits, by rw [receive_delivered, output]⟩

/-! ## The ACK part and the payload -/

/-- A payload is passed on exactly if its segment gets to the data part and is
accepted there, and it is copied as it is. -/
theorem copiesPayload_nonempty_iff (nonempty : seg.data ≠ []) :
    CopiesPayload env s seg ↔
      s.ReachesData env seg ∧ ¬ s.isDuplicate seg ∧ seg.data.length ≤ maxSegDataSize ∧
        seg.len.toNat = segmentHdrSize + seg.data.length ∧ NulTail seg.data := by
  rw [copiesPayload_split, outputs_eq_iff nonempty]
  constructor
  · rintro ⟨fits, data, accepted, len, tail⟩
    exact ⟨data, accepted, (copyFits_iff len).mp fits, len, tail⟩
  · rintro ⟨data, accepted, room, len, tail⟩
    exact ⟨(copyFits_iff len).mpr room, data, accepted, len, tail⟩

/-- The payload is passed on as it is, whatever congestion control goes by. -/
def CtcpState.PassesPayload (env : Env) (s : CtcpState) (seg : CtcpSegment) : Prop :=
  ∀ t, s.SameButEstimates t → CopiesPayload env t seg

/-- **A payload reaches `conn_output`** on an open connection, as it is and
whatever congestion control goes by, exactly if its segment is no FIN and no
duplicate, its ACK part does not come to the `return`s, there is room for it in
the block, its length field is true, and nothing but NULs follows a NUL. -/
theorem payload_passes_iff (ieee : env.float.Ieee) (opened : s.connectionState = 0)
    (nonempty : seg.data ≠ []) :
    s.PassesPayload env seg ↔
      ¬ seg.hasFlag thFin ∧ ¬ s.isDuplicate seg ∧ s.AvoidsReturns seg ∧
        seg.data.length ≤ maxSegDataSize ∧
        seg.len.toNat = segmentHdrSize + seg.data.length ∧ NulTail seg.data := by
  have reaches : s.ReachesAck seg ↔ ¬ seg.hasFlag thFin := by
    rw [ReachesAck, opened]
    simp
  constructor
  · intro passes
    obtain ⟨data, fresh, room, len, tail⟩ :=
      (copiesPayload_nonempty_iff nonempty).mp (passes s (.refl s))
    refine ⟨reaches.mp data.1, fresh, ?_, room, len, tail⟩
    by_contra comes
    obtain ⟨t, same, turn, made, leaves⟩ := leaves_of_not_avoids ieee data.1 comes
    have late := ((copiesPayload_nonempty_iff nonempty).mp (passes t same)).1
    exact (reachesData_iff.mp late).2 turn (made ▸ List.mem_singleton_self turn) leaves
  · rintro ⟨noFin, fresh, avoids, room, len, tail⟩ t same
    rw [SameButEstimates] at same
    have data : t.ReachesData env seg := by
      have avoids' : t.AvoidsReturns seg := by
        rw [same]
        exact avoids
      refine reachesData_iff.mpr ⟨?_, fun turn made leaves => ?_⟩
      · rw [same]
        exact reaches.mpr noFin
      · exact leaves.1 (turns_of_avoids env avoids' turn made)
    have fresh' : ¬ t.isDuplicate seg := by
      rw [same]
      exact fresh
    exact (copiesPayload_nonempty_iff nonempty).mpr ⟨data, fresh', room, len, tail⟩

/-- A segment with one byte for a new connection. -/
theorem payload_passes_iff_first :
    (CtcpState.fresh (.plain .little)).PassesPayload (.plain .little)
        ⟨1, 1, 21, thAck, 1440, 0, [97]⟩ ↔
      ¬ CtcpSegment.hasFlag ⟨1, 1, 21, thAck, 1440, 0, [97]⟩ thFin ∧
        ¬ (CtcpState.fresh (.plain .little)).isDuplicate ⟨1, 1, 21, thAck, 1440, 0, [97]⟩ ∧
        (CtcpState.fresh (.plain .little)).AvoidsReturns ⟨1, 1, 21, thAck, 1440, 0, [97]⟩ ∧
        [(97 : UInt8)].length ≤ maxSegDataSize ∧
        (21 : UInt16).toNat = segmentHdrSize + [(97 : UInt8)].length ∧ NulTail [97] :=
  payload_passes_iff FloatArith.ieee_exact rfl (by decide)

/-- Exact arithmetic, a millisecond between two readings of the clock, and
cleared memory. -/
def Env.quick : Env := { Env.plain .little with clock := fun k => k + 1 }

/-- `n` bytes of input. -/
def Block.letters (n : Nat) (positive : n ≠ 0) (room : n ≤ maxSegDataSize) : Block where
  bytes := List.replicate n 97
  nonempty := fun empty => positive (by simpa using congrArg List.length empty)
  fits := by rwa [List.length_replicate]
  behind := fun _ => 0

/-- Three blocks are read. The first two fill the window, and the third is
pending when the ACK for the first comes with data. -/
theorem payload_is_suppressed :
    ¬ ∀ (calls : List Call) (s : CtcpState) (seg : CtcpSegment),
      Run (CallStep .quick) (.fresh .quick) calls s → s.connectionState = 0 →
        seg.hasFlag thAck → seg.data ≠ [] → seg.seqno = s.secondMostRecentAcknowledgement →
          (s.receive .quick seg).delivered = s.delivered ++ seg.data := by
  intro general
  let blocks : List Block := [.letters 1 (by decide) (by decide),
    .letters 1439 (by decide) (by decide), .letters 1 (by decide) (by decide)]
  let s : CtcpState :=
    (blocks.map Block.payload).foldl (fun s data => s.apply .quick (.send data thAck.toNat))
      (.fresh .quick)
  have run : Run (CallStep .quick) (.fresh .quick) (blocks.map Call.block) s :=
    run_foldlM (fun s _ => s.alive) (fun _ _ _ alive step => ⟨alive, step⟩) (by decide +kernel)
  have passed := general _ s ⟨1, 2, 21, thAck, 1440, 0, [100]⟩ run (by decide +kernel) (by decide)
    (by decide) (by decide +kernel)
  revert passed
  decide +kernel

/-! ## Any segment that is accepted -/

/-- What a peer can do to the copy: `data_len` is what the IP header announces
behind the headers, modulo 2^16, and negative where the sum with the size of
the cTCP header wraps around. -/
theorem copyFits_datagram_iff (e : Endian) (src : Conn) (datagram : List UInt8) :
    CopyFits (convertToCtcp e src datagram) ↔
      (ofBe16 (slice datagram 2 2) - UInt16.ofNat (ipHdrSize + tcpHdrSize)).toNat ≤
        maxSegDataSize := by
  set announced := ofBe16 (slice datagram 2 2) - UInt16.ofNat (ipHdrSize + tcpHdrSize)
  have bound : announced.toNat < 2 ^ 16 := announced.toNat_lt
  have len : (convertToCtcp e src datagram).len.toNat =
      (announced.toNat + segmentHdrSize) % 2 ^ 16 := UInt16.toNat_add _ _
  rw [CopyFits, dataLen, len]
  simp only [segmentHdrSize, maxSegDataSize]
  omega

/-- An accepted segment puts nothing out exactly if its length field announces no
payload. -/
theorem outputs_nil_iff (data : s.ReachesData env seg) (accepted : ¬ s.isDuplicate seg) :
    s.outputs env seg = [] ↔ seg.len.toNat ≤ segmentHdrSize := by
  rw [outputs]
  by_cases long : segmentHdrSize < seg.len.toNat
  · rw [if_pos ⟨data, accepted, long⟩, ← List.length_eq_zero_iff, length_strncpy, dataBytes,
      List.length_map, List.length_range, dataLen]
    omega
  · rw [if_neg fun h => long h.2.2]
    exact iff_of_true rfl (Nat.not_lt.mp long)

/-- **A payload passes unchanged and within the buffer** exactly if there is room
for it, its length field is true, and nothing but NULs follows a NUL. -/
theorem copiesPayload_iff (data : s.ReachesData env seg) (accepted : ¬ s.isDuplicate seg) :
    CopiesPayload env s seg ↔
      seg.data.length ≤ maxSegDataSize ∧
        seg.len.toNat = segmentHdrSize + seg.data.length ∧ NulTail seg.data := by
  rw [copiesPayload_split]
  by_cases empty : seg.data = []
  · have tail : NulTail [] := List.forall_mem_nil _
    rw [empty, outputs_nil_iff data accepted, CopyFits, dataLen, List.length_nil]
    constructor
    · rintro ⟨fits, short⟩
      exact ⟨Nat.zero_le _, by omega, tail⟩
    · rintro ⟨-, len, -⟩
      omega
  · rw [outputs_eq_iff empty]
    constructor
    · rintro ⟨fits, -, -, len, tail⟩
      exact ⟨(copyFits_iff len).mp fits, len, tail⟩
    · rintro ⟨room, len, tail⟩
      exact ⟨(copyFits_iff len).mpr room, data, accepted, len, tail⟩

/-- Three bytes without a NUL. -/
theorem copiesPayload_iff_text :
    CopiesPayload (.plain .little) (.fresh (.plain .little))
        ⟨1, 1, 23, thAck, 1440, 0, [97, 98, 10]⟩ ↔
      [97, 98, (10 : UInt8)].length ≤ maxSegDataSize ∧
        (23 : UInt16).toNat = segmentHdrSize + [97, 98, (10 : UInt8)].length ∧
        NulTail [97, 98, 10] :=
  copiesPayload_iff (by decide +kernel) (by decide +kernel)

/-- A NUL ends the copy, and what follows it arrives as NULs. -/
theorem nul_ends_copy :
    ¬ ∀ (calls : List Call) (s : CtcpState) (seg : CtcpSegment),
      Run (CallStep (.plain .little)) (.fresh (.plain .little)) calls s →
        s.ReachesData (.plain .little) seg →
        seg.seqno = s.secondMostRecentAcknowledgement →
          CopiesPayload (.plain .little) s seg := by
  intro general
  have copied := (general [] _ ⟨1, 1, 23, thAck, 1440, 0, [97, 0, 98]⟩ .nil (by decide +kernel)
    (by decide +kernel)).output
  revert copied
  decide +kernel

end NetLabs.Ctcp
