/-
NetLabs.Ctcp.Validity — what `ctcp_receive` does with a segment that is
corrupted, truncated or malformed.

`ctcp_receive` clears `cksum` without having looked at it and never uses the
length it is given, so such a segment is processed like any other:
it is accepted, answered and given to `conn_output`
(`corrupted_segment_is_accepted`). Whether it leaves a trace is decided by
the state alone. `Ignorable` says when it leaves none: no FIN to take, no
segment to acknowledge, and both acknowledgement fields already where the
segment puts them (`ignores_iff`).
-/
import NetLabs.Ctcp.AckHonesty

namespace NetLabs.Ctcp

open NetLabs.Lib

variable {env : Env}

/-! ## Segments that are not valid -/

namespace CtcpSegment

/-- The length `ctcp_receive` is given: what has arrived, with padding or
truncated. -/
def receivedLen (seg : CtcpSegment) : Nat := segmentHdrSize + seg.data.length

/-- The segment as its length field delimits it. -/
def contents (seg : CtcpSegment) : CtcpSegment :=
  { seg with data := seg.data.take (seg.len.toNat - segmentHdrSize) }

/-- The checksum is wrong, the segment is truncated, or its length field does
not cover the header. -/
def Invalid (e : Endian) (seg : CtcpSegment) : Prop :=
  seg.cksum ≠ seg.contents.correctCksum e ∨ seg.receivedLen < seg.len.toNat ∨
    seg.len.toNat < segmentHdrSize

instance (e : Endian) (seg : CtcpSegment) : Decidable (seg.Invalid e) :=
  inferInstanceAs (Decidable (_ ∨ _ ∨ _))

end CtcpSegment

/-! ## Segments without effect -/

namespace CtcpState

/-- `strncpy(segment_data_buf, segment->data, data_len)` stays inside the
block of `MAX_SEG_DATA_SIZE` bytes. A negative `data_len` becomes a huge
`size_t`. -/
def CopyFits (seg : CtcpSegment) : Prop := 0 ≤ dataLen seg ∧ dataLen seg ≤ maxSegDataSize

instance (seg : CtcpSegment) : Decidable (CopyFits seg) := inferInstanceAs (Decidable (_ ∧ _))

/-- `ctcp_receive` has no effect: the connection is as it was, the trace of
what was sent and put out included, and nothing else was written. -/
def Ignores (env : Env) (s : CtcpState) (seg : CtcpSegment) : Prop :=
  s.receive env seg = s ∧ (s.ReachesData env seg → CopyFits seg)

/-- The state gives `ctcp_receive` nothing to do for this segment. -/
structure Ignorable (s : CtcpState) (seg : CtcpSegment) : Prop where
  /-- The segment is not taken for the FIN of the peer. -/
  noFin : ¬ (seg.hasFlag thFin ∧ s.connectionState = 0)
  /-- The segment is not taken for the answer to a FIN. -/
  opened : s.connectionState ≠ 1
  /-- The segment acknowledges nothing. -/
  noAck : seg.hasFlag thAck →
    ∀ b ∈ s.unacknowledgedSegments.head?, ¬ b.segment.seqno < seg.ackno
  /-- The segment ends where the last one ended. -/
  stamp : seg.seqno + UInt32.ofInt (dataLen seg) = s.mostRecentReceivedAcknowledgement
  /-- The segment is a duplicate, or has no data and ends at the watermark. -/
  old : s.isDuplicate seg ∨ seg.len.toNat ≤ segmentHdrSize ∧
    s.secondMostRecentAcknowledgement = s.mostRecentReceivedAcknowledgement
  /-- The data of the segment would fit. -/
  fits : CopyFits seg

/-! ## The parts of `ctcp_receive` -/

/-- The ACK part does nothing if the oldest segment is not acknowledged. -/
theorem processAck_idle {s : CtcpState} {seg : CtcpSegment}
    (h : seg.hasFlag thAck → ∀ b ∈ s.unacknowledgedSegments.head?, ¬ b.segment.seqno < seg.ackno) :
    s.processAck env seg = (s, false) := by
  rw [processAck]
  split
  · rename_i hflag
    cases hfuel : s.sendQueue.length with
    | zero => rfl
    | succ fuel =>
      rw [ackLoop]
      split
      · rfl
      · rename_i b rest queue
        rw [if_neg (h hflag b (by simp [queue]))]
  · rfl

/-- The ACK part removes an oldest segment that is acknowledged, and the trace
tells. -/
theorem processAck_busy {s : CtcpState} {seg : CtcpSegment} {b : Buf} (hflag : seg.hasFlag thAck)
    (front : s.unacknowledgedSegments.head? = some b) (hb : b.segment.seqno < seg.ackno) :
    s.trace.length < (s.processAck env seg).1.trace.length := by
  obtain ⟨rest, queue⟩ : ∃ rest, s.unacknowledgedSegments = b :: rest := by
    cases hq : s.unacknowledgedSegments with
    | nil => simp [hq] at front
    | cons c rest => exact ⟨rest, by simpa [hq] using front⟩
  have hfuel : s.sendQueue.length = (rest ++ s.outputPendingSegments).length + 1 := by
    simp [sendQueue, queue]
  -- the front is removed first; what follows only adds to the trace
  have removed : ((s.measure env b).removeFront b rest).trace = s.trace ++ [.acknowledged b] := by
    rw [removeFront, log, (tuned_measure env s b).trace]
  have later : ∀ {t : CtcpState}, Sends env ((s.measure env b).removeFront b rest) t →
      s.trace.length < t.trace.length := by
    intro t hsends
    have grown := (micros_trace hsends.micros).length_le
    rw [removed, List.length_append] at grown
    exact grown
  rw [processAck, if_pos hflag, hfuel, ackLoop, queue]
  dsimp only
  rw [if_pos hb]
  split
  · exact later (ackLoop_sends _ _ _)
  · have flushed := (admitPending_sends ((s.measure env b).removeFront b rest)).trans
      (flush_sends env _)
    split
    · exact later flushed
    · exact later (flushed.trans (ackLoop_sends _ _ _))

/-- The data part leaves the state alone exactly if both acknowledgement
fields are where it would put them and it has no data to give out. -/
theorem processData_eq_self_iff {s : CtcpState} {seg : CtcpSegment} :
    s.processData env seg = s ↔
      seg.seqno + UInt32.ofInt (dataLen seg) = s.mostRecentReceivedAcknowledgement ∧
      (s.isDuplicate seg ∨ seg.len.toNat ≤ segmentHdrSize ∧
        s.secondMostRecentAcknowledgement = s.mostRecentReceivedAcknowledgement) := by
  constructor
  · intro h
    have htrace : (s.processData env seg).trace = s.trace := congrArg trace h
    have hstamp : (s.processData env seg).mostRecentReceivedAcknowledgement =
        s.mostRecentReceivedAcknowledgement := congrArg _ h
    have hmark : (s.processData env seg).secondMostRecentAcknowledgement =
        s.secondMostRecentAcknowledgement := congrArg _ h
    rw [processData] at htrace hstamp hmark
    by_cases hdata : seg.len.toNat > segmentHdrSize ∧ ¬ s.isDuplicate seg
    · rw [if_pos hdata] at htrace
      have := congrArg List.length htrace
      simp [log, sendSegment, sendControl, recordSeqno] at this
    · rw [if_neg hdata, recordSeqno] at hstamp hmark
      refine ⟨hstamp, ?_⟩
      by_cases dup : s.isDuplicate seg
      · exact .inl dup
      · rw [if_neg dup] at hmark
        exact .inr ⟨Nat.le_of_not_lt fun hlt => hdata ⟨hlt, dup⟩, hmark.symm.trans hstamp⟩
  · rintro ⟨hstamp, hold⟩
    have hdata : ¬ (seg.len.toNat > segmentHdrSize ∧ ¬ s.isDuplicate seg) := by
      rintro ⟨hlen, hdup⟩
      rcases hold with dup | ⟨hempty, -⟩
      · exact hdup dup
      · omega
    have hmark : (if s.isDuplicate seg then s.secondMostRecentAcknowledgement
        else seg.seqno + UInt32.ofInt (dataLen seg)) = s.secondMostRecentAcknowledgement := by
      split
      · rfl
      · rename_i hdup
        exact hstamp.trans (hold.resolve_left hdup).2.symm
    rw [processData, if_neg hdata, recordSeqno, hmark, hstamp]

/-- On a live connection `ctcp_receive` leaves the state alone exactly if it
reaches its data part with nothing acknowledged and the data part leaves the
state alone. -/
theorem receive_eq_self_iff {s : CtcpState} {seg : CtcpSegment} (alive : s.alive = true) :
    s.receive env seg = s ↔
      ¬ (seg.hasFlag thFin ∧ s.connectionState = 0) ∧ s.connectionState ≠ 1 ∧
      (seg.hasFlag thAck →
        ∀ b ∈ s.unacknowledgedSegments.head?, ¬ b.segment.seqno < seg.ackno) ∧
      s.processData env seg = s := by
  constructor
  · intro h
    have htrace : (s.receive env seg).trace.length = s.trace.length := by rw [h]
    have hnofin : ¬ (seg.hasFlag thFin ∧ s.connectionState = 0) := by
      intro hfin
      rw [receive, if_pos hfin] at htrace
      simp [log, sendSegment, sendControl] at htrace
    have hopen : s.connectionState ≠ 1 := by
      intro hclosed
      rw [receive, if_neg hnofin, if_pos hclosed] at h
      have := congrArg CtcpState.alive h
      rw [alive] at this
      exact Bool.noConfusion this
    have hack : seg.hasFlag thAck →
        ∀ b ∈ s.unacknowledgedSegments.head?, ¬ b.segment.seqno < seg.ackno := by
      intro hflag b hb hlt
      have busy : s.trace.length < (s.processAck env seg).1.trace.length :=
        processAck_busy hflag hb hlt
      rw [receive, if_neg hnofin, if_neg hopen] at htrace
      dsimp only at htrace
      split at htrace
      · omega
      · have grown :=
          (micros_trace (@processData_micro env (s.processAck env seg).1 seg)).length_le
        omega
    refine ⟨hnofin, hopen, hack, ?_⟩
    rwa [receive, if_neg hnofin, if_neg hopen, processAck_idle hack] at h
  · rintro ⟨hnofin, hopen, hack, hdata⟩
    rw [receive, if_neg hnofin, if_neg hopen, processAck_idle hack]
    exact hdata

end CtcpState

/-! ## Invalid segments -/

/-- **Invalid segments.** On a live connection an invalid segment has no
effect exactly if the state gives `ctcp_receive` nothing to do for it. -/
theorem ignores_iff (env : Env) {s : CtcpState} (seg : CtcpSegment) (alive : s.alive = true) :
    (seg.Invalid env.endian → s.Ignores env seg) ↔
      (seg.Invalid env.endian → s.Ignorable seg) := by
  refine imp_congr_right fun _ => ⟨fun h => ?_, fun h => ?_⟩
  · obtain ⟨hself, hfits⟩ := h
    obtain ⟨hnofin, hopen, hack, hdata⟩ := (CtcpState.receive_eq_self_iff alive).mp hself
    obtain ⟨hstamp, hold⟩ := CtcpState.processData_eq_self_iff.mp hdata
    have reached : s.ReachesData env seg :=
      ⟨⟨hnofin, hopen⟩, by rw [CtcpState.processAck_idle hack]⟩
    exact ⟨hnofin, hopen, hack, hstamp, hold, hfits reached⟩
  · have hdata : s.processData env seg = s :=
      CtcpState.processData_eq_self_iff.mpr ⟨h.stamp, h.old⟩
    have hself := (CtcpState.receive_eq_self_iff alive).mpr ⟨h.noFin, h.opened, h.noAck, hdata⟩
    exact ⟨hself, fun _ => h.fits⟩

/-- A segment whose checksum is wrong arrives a second time. -/
theorem ignores_iff_duplicate :
    let env : Env := .plain .little
    let seg : CtcpSegment := ⟨1, 1, 21, thAck, 1440, 0, [97]⟩
    let s := (CtcpState.fresh env).receive env seg
    (seg.Invalid .little → s.Ignores env seg) ↔ (seg.Invalid .little → s.Ignorable seg) :=
  ignores_iff (.plain .little) _ (by decide +kernel)

/-- A new connection accepts, acknowledges and puts out the byte of a segment
whose checksum is wrong. -/
theorem corrupted_segment_is_accepted :
    ¬ ∀ (ops : List Op) (s : CtcpState) (seg : CtcpSegment),
      Run (Step (.plain .little)) (.fresh (.plain .little)) ops s → s.alive = true →
      seg.Invalid .little → s.Ignores (.plain .little) seg := by
  intro general
  have h := (general [] _ ⟨1, 1, 21, thAck, 1440, 0, [97]⟩ .nil rfl (by decide +kernel)).1
  revert h
  decide +kernel

end NetLabs.Ctcp
