/-
NetLabs.Ctcp.Stream — the byte stream a connection sends and the segments it
is cut into.

The stream is the concatenation of the payloads given to `send_segment` with
`req_ack`. `sentSegments` lists everything handed to `conn_send`, each
segment with the position in the stream at which it was built. `micro_sent`
says once which segments a step can send; from it every segment ever sent is
a `Cut` of the stream: its sequence number is its position plus one modulo
2^32, its length field is true, and its payload is the piece of the stream
at its position.
-/
import NetLabs.Ctcp.SendQueue
import NetLabs.Lib.Stream

namespace NetLabs.Ctcp

open NetLabs.Lib

variable {env : Env}

/-! ## Segments handed to `conn_send` -/

/-- The segment an action handed to `conn_send`, with its position. -/
def Event.sent? : Event → Option (Nat × CtcpSegment)
  | .transmitted b => some (b.position, b.segment)
  | .retransmitted b => some (b.position, b.segment)
  | .control position seg => some (position, seg)
  | _ => none

namespace CtcpState

/-- The segments handed to `conn_send`, in order. -/
def sentSegments (s : CtcpState) : List (Nat × CtcpSegment) := s.trace.filterMap Event.sent?

/-- The bytes given to `send_segment` with `req_ack`. -/
def stream (s : CtcpState) : List UInt8 := s.queuedPayloads.flatten

end CtcpState

/-- A segment of the stream. -/
structure Cut (stream : List UInt8) (position : Nat) (seg : CtcpSegment) : Prop where
  seqno : seg.seqno = UInt32.ofNat (1 + position)
  len : seg.len.toNat = segmentHdrSize + seg.data.length
  piece : IsPiece stream position seg.data

theorem Cut.append {stream : List UInt8} {position : Nat} {seg : CtcpSegment}
    (h : Cut stream position seg) (more : List UInt8) : Cut (stream ++ more) position seg :=
  ⟨h.seqno, h.len, h.piece.append more⟩

/-- What a step can send: a queued segment, or a segment without data with
the numbers of the state. -/
theorem micro_sent {half : Half} {s t : CtcpState} (h : Micro env half s t) :
    t.sentSegments = s.sentSegments ∨
    (∃ b ∈ s.unacknowledgedSegments,
      t.sentSegments = s.sentSegments ++ [(b.position, b.segment)] ∧
        (b.sent = 0 ∨ s.isDue env b)) ∨
    ∃ flags, t.sentSegments = s.sentSegments ++ [(s.position, s.makeSegment env [] flags)] := by
  cases h with
  | tune tuned =>
    obtain ⟨_, _, _, _, _, _, _, rfl⟩ := tuned
    exact .inl rfl
  | limit | recordSeqno | fin | destroy => exact .inl rfl
  | admitted | remove | output =>
    left
    simp [CtcpState.sentSegments, CtcpState.admitOne, CtcpState.removeFront, CtcpState.log,
      Event.sent?]
  | control _ flags =>
    refine .inr (.inr ⟨flags, ?_⟩)
    simp [CtcpState.sentSegments, CtcpState.sendControl, CtcpState.log, Event.sent?]
  | @transmit _ visited b rest queue unsent =>
    refine .inr (.inl ⟨b, by simp [queue], ?_, .inl unsent⟩)
    simp [CtcpState.sentSegments, CtcpState.transmitOne, CtcpState.log, Event.sent?]
  | @retransmit _ visited b rest queue due =>
    refine .inr (.inl ⟨b, by simp [queue], ?_, .inr due⟩)
    simp [CtcpState.sentSegments, CtcpState.retransmitOne, CtcpState.log, Event.sent?]

/-- A step queues no segment and moves none to another position. -/
theorem micro_positions {half : Half} {s t : CtcpState} (h : Micro env half s t) :
    t.position = s.position ∧
    ∀ b ∈ t.sendQueue, ∃ a ∈ s.sendQueue, a.position = b.position ∧ a.segment = b.segment := by
  have same : ∀ {s t : CtcpState}, t.sendQueue ⊆ s.sendQueue →
      ∀ b ∈ t.sendQueue, ∃ a ∈ s.sendQueue, a.position = b.position ∧ a.segment = b.segment :=
    fun hsub b hb => ⟨b, hsub hb, rfl, rfl⟩
  have replaced : ∀ {visited rest pending : List Buf} {b b' : Buf}, b.position = b'.position →
      b.segment = b'.segment → ∀ c ∈ visited ++ b' :: rest ++ pending,
        ∃ a ∈ visited ++ b :: rest ++ pending, a.position = c.position ∧ a.segment = c.segment := by
    intro visited rest pending b b' hp hs c hc
    by_cases hcb : c = b'
    · exact ⟨b, by simp, by rw [hp, hcb], by rw [hs, hcb]⟩
    · refine ⟨c, ?_, rfl, rfl⟩
      simp only [List.mem_append, List.mem_cons] at hc ⊢
      tauto
  cases h with
  | tune tuned =>
    obtain ⟨_, _, _, _, _, _, _, rfl⟩ := tuned
    exact ⟨rfl, same fun _ h => h⟩
  | limit | recordSeqno | fin | destroy | control | output => exact ⟨rfl, same fun _ h => h⟩
  | admitted pending room =>
    refine ⟨rfl, same fun c hc => ?_⟩
    simpa [CtcpState.admitOne, CtcpState.log, CtcpState.sendQueue, pending] using hc
  | remove queue =>
    refine ⟨rfl, same fun c hc => ?_⟩
    simp only [CtcpState.removeFront, CtcpState.log, CtcpState.sendQueue, queue,
      List.cons_append, List.mem_cons] at hc ⊢
    exact .inr hc
  | transmit queue unsent =>
    refine ⟨rfl, ?_⟩
    rw [CtcpState.sendQueue, CtcpState.sendQueue, queue]
    exact replaced rfl rfl
  | retransmit queue due =>
    refine ⟨rfl, ?_⟩
    rw [CtcpState.sendQueue, CtcpState.sendQueue, queue]
    exact replaced rfl rfl

/-! ## Every segment is a cut of the stream -/

/-- The numbering of the stream and the segments cut from it. -/
structure StreamInv (s : CtcpState) : Prop where
  position : s.position = s.stream.length
  seqno : s.mostRecentSequenceNumber = UInt32.ofNat (1 + s.position)
  queued : ∀ b ∈ s.sendQueue, Cut s.stream b.position b.segment
  sent : ∀ x ∈ s.sentSegments, Cut s.stream x.1 x.2

theorem streamInv_init (block : Bbr) (config : CtcpConfig) :
    StreamInv (ctcpInit env block config) :=
  ⟨rfl, rfl, nofun, nofun⟩

/-- The segment `send_segment` builds is the cut at the end of the stream. -/
theorem cut_makeSegment {s : CtcpState} (h : StreamInv s) (data : Payload) (flags : Int) :
    Cut (s.stream ++ data.1) s.position (s.makeSegment env data.1 flags) := by
  refine ⟨h.seqno, ?_, ?_⟩
  · have hd : data.1.length ≤ 1440 := data.2
    simp only [CtcpState.makeSegment, UInt16.toNat_ofNat', segmentHdrSize]
    omega
  · rw [makeSegment_data, h.position]
    exact .last _ _

theorem streamInv_enqueue (s : CtcpState) (data : Payload) (flags : Int) (h : StreamInv s) :
    StreamInv (s.enqueue env data.1 flags) := by
  have stream : (s.enqueue env data.1 flags).stream = s.stream ++ data.1 := by
    rw [CtcpState.stream, (enqueue_queue env s data.1 flags).2.2.1, List.flatten_append]
    simp [CtcpState.stream]
  refine ⟨?_, ?_, fun b hb => ?_, fun x hx => ?_⟩
  · rw [stream, List.length_append, ← h.position]
    rfl
  · rw [(enqueue_queue env s data.1 flags).2.1, h.seqno]
    simp only [CtcpState.enqueue, CtcpState.log, ← UInt32.ofNat_add, Nat.add_assoc]
  · rw [stream]
    simp only [CtcpState.enqueue, CtcpState.log, CtcpState.sendQueue, List.mem_append,
      List.mem_singleton] at hb
    rcases hb with hb | hb | rfl
    · exact (h.queued b (List.mem_append_left _ hb)).append _
    · exact (h.queued b (List.mem_append_right _ hb)).append _
    · exact cut_makeSegment h data flags
  · rw [stream]
    refine (h.sent x ?_).append _
    simpa [CtcpState.sentSegments, CtcpState.enqueue, CtcpState.log, Event.sent?] using hx

theorem streamInv_micro {half : Half} {s t : CtcpState} (h : StreamInv s)
    (hstep : Micro env half s t) : StreamInv t := by
  obtain ⟨hseq, hpay, -⟩ := micro_queue hstep
  obtain ⟨hpos, hqueue⟩ := micro_positions hstep
  have stream : t.stream = s.stream := by rw [CtcpState.stream, CtcpState.stream, hpay]
  refine ⟨by rw [hpos, stream, h.position], by rw [hseq, hpos, h.seqno], fun b hb => ?_, ?_⟩
  · obtain ⟨a, ha, hp, hs⟩ := hqueue b hb
    rw [stream, ← hp, ← hs]
    exact h.queued a ha
  · rw [stream]
    obtain hsent | ⟨b, hb, hsent, -⟩ | ⟨flags, hsent⟩ := micro_sent hstep <;> rw [hsent]
    · exact h.sent
    · intro x hx
      rw [List.mem_append, List.mem_singleton] at hx
      rcases hx with hx | rfl
      · exact h.sent x hx
      · exact h.queued b (List.mem_append_left _ hb)
    · intro x hx
      rw [List.mem_append, List.mem_singleton] at hx
      rcases hx with hx | rfl
      · exact h.sent x hx
      · simpa using cut_makeSegment h ⟨[], by decide⟩ flags

end NetLabs.Ctcp
