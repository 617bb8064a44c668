/-
NetLabs.Ctcp.SendQueue — the two segment queues of a connection are one
contiguous piece of the stream, and nothing is lost from it.

`unacknowledged_segments` and `output_pending_segments` are filled and
emptied from four places. `micro_queue` says once what any of them can do to
their concatenation: leave its segments and their order as they are, or take
the front segment off, which an ACK does. From it and the effect of
`enqueue`, `QueueInv` is an invariant of every run: consecutive segments
meet modulo 2^32, the last one ends at `most_recent_sequence_number`, and the
payloads acknowledged so far followed by those still queued are all payloads
queued, in order.
-/
import NetLabs.Ctcp.Steps
import Mathlib.Data.List.Chain

namespace NetLabs.Ctcp

open NetLabs.Lib

variable {env : Env}

/-! ## Sequence numbers and payloads of the queue -/

/-- The sequence number after the payload of a segment. -/
def CtcpSegment.nextSeqno (seg : CtcpSegment) : UInt32 :=
  seg.seqno + UInt32.ofNat seg.data.length

/-- The payload a call gives to `send_segment` with `req_ack`. -/
def Op.payload? : Op → Option (List UInt8)
  | .send data _ => some data.1
  | _ => none

/-- The payload of a segment that was queued. -/
def Event.queuedPayload? : Event → Option (List UInt8)
  | .queued b => some b.segment.data
  | _ => none

namespace CtcpState

/-- The segments of both queues, oldest first. -/
def queuedSegments (s : CtcpState) : List CtcpSegment := s.sendQueue.map Buf.segment

/-- The payloads removed from the send queue by ACKs, in order. -/
def acknowledgedPayloads (s : CtcpState) : List (List UInt8) :=
  s.trace.filterMap Event.acknowledgedPayload?

/-- The payloads ever queued, in order. -/
def queuedPayloads (s : CtcpState) : List (List UInt8) :=
  s.trace.filterMap Event.queuedPayload?

end CtcpState

/-- The segment a call builds carries the data and the sequence number the
state was at. -/
theorem makeSegment_data (s : CtcpState) (data : List UInt8) (flags : Int) :
    (s.makeSegment env data flags).data = data := rfl

theorem makeSegment_seqno (s : CtcpState) (data : List UInt8) (flags : Int) :
    (s.makeSegment env data flags).seqno = s.mostRecentSequenceNumber := rfl

/-! ## What a step does to the queue -/

/-- An elementary step leaves the queued segments alone or removes the front
one, and it leaves the next sequence number alone. -/
theorem micro_queue {half : Half} {s t : CtcpState} (h : Micro env half s t) :
    t.mostRecentSequenceNumber = s.mostRecentSequenceNumber ∧
    t.queuedPayloads = s.queuedPayloads ∧
    ((t.queuedSegments = s.queuedSegments ∧
        t.acknowledgedPayloads = s.acknowledgedPayloads) ∨
      ∃ seg, s.queuedSegments = seg :: t.queuedSegments ∧
        t.acknowledgedPayloads = s.acknowledgedPayloads ++ [seg.data]) := by
  cases h with
  | remove queue =>
    rename_i b rest
    refine ⟨rfl, ?_, .inr ⟨b.segment, ?_, ?_⟩⟩
    · simp [CtcpState.queuedPayloads, CtcpState.removeFront, CtcpState.log,
        Event.queuedPayload?]
    · simp [CtcpState.queuedSegments, CtcpState.sendQueue, CtcpState.removeFront,
        CtcpState.log, queue]
    · simp [CtcpState.acknowledgedPayloads, CtcpState.removeFront, CtcpState.log,
        Event.acknowledgedPayload?]
  | tune tuned =>
    obtain ⟨_, _, _, _, _, _, _, rfl⟩ := tuned
    exact ⟨rfl, rfl, .inl ⟨rfl, rfl⟩⟩
  | control =>
    refine ⟨?_, ?_, .inl ⟨rfl, ?_⟩⟩
    · simp [CtcpState.sendControl, CtcpState.log]
    · simp [CtcpState.queuedPayloads, CtcpState.sendControl, CtcpState.log,
        Event.queuedPayload?]
    · simp [CtcpState.acknowledgedPayloads, CtcpState.sendControl, CtcpState.log,
        Event.acknowledgedPayload?]
  | admitted pending room =>
    refine ⟨rfl, ?_, .inl ⟨?_, ?_⟩⟩ <;>
      simp [CtcpState.queuedPayloads, CtcpState.queuedSegments, CtcpState.sendQueue,
        CtcpState.acknowledgedPayloads, CtcpState.admitOne, CtcpState.log,
        Event.queuedPayload?, Event.acknowledgedPayload?, pending]
  | transmit queue unsent =>
    refine ⟨rfl, ?_, .inl ⟨?_, ?_⟩⟩ <;>
      simp [CtcpState.queuedPayloads, CtcpState.queuedSegments, CtcpState.sendQueue,
        CtcpState.acknowledgedPayloads, CtcpState.transmitOne, CtcpState.markSent,
        CtcpState.log, Event.queuedPayload?, Event.acknowledgedPayload?, queue]
  | retransmit queue due =>
    refine ⟨rfl, ?_, .inl ⟨?_, ?_⟩⟩ <;>
      simp [CtcpState.queuedPayloads, CtcpState.queuedSegments, CtcpState.sendQueue,
        CtcpState.acknowledgedPayloads, CtcpState.retransmitOne, CtcpState.markResent,
        CtcpState.log, Event.queuedPayload?, Event.acknowledgedPayload?, queue]
  | output =>
    refine ⟨rfl, ?_, .inl ⟨rfl, ?_⟩⟩ <;>
      simp [CtcpState.queuedPayloads, CtcpState.acknowledgedPayloads, CtcpState.log,
        Event.queuedPayload?, Event.acknowledgedPayload?]
  | limit | recordSeqno | fin | destroy => exact ⟨rfl, rfl, .inl ⟨rfl, rfl⟩⟩

/-- Queueing appends a segment that starts at the next sequence number and
advances that number by the length of the data. -/
theorem enqueue_queue (env : Env) (s : CtcpState) (data : List UInt8) (flags : Int) :
    (s.enqueue env data flags).queuedSegments =
      s.queuedSegments ++ [s.makeSegment env data flags] ∧
    (s.enqueue env data flags).mostRecentSequenceNumber =
      s.mostRecentSequenceNumber + UInt32.ofNat data.length ∧
    (s.enqueue env data flags).queuedPayloads = s.queuedPayloads ++ [data] ∧
    (s.enqueue env data flags).acknowledgedPayloads = s.acknowledgedPayloads := by
  refine ⟨?_, rfl, ?_, ?_⟩ <;>
    simp [CtcpState.queuedPayloads, CtcpState.queuedSegments, CtcpState.sendQueue,
      CtcpState.acknowledgedPayloads, CtcpState.enqueue, CtcpState.makeBuf, CtcpState.log,
      Event.queuedPayload?, Event.acknowledgedPayload?, makeSegment_data]

/-! ## The invariant -/

/-- Each queued segment ends where the next begins. -/
def Contiguous (segs : List CtcpSegment) : Prop :=
  segs.IsChain fun a b => a.nextSeqno = b.seqno

/-- The send queue is a contiguous piece of the stream that ends at the next
sequence number, and acknowledged and queued payloads add up. -/
structure QueueInv (s : CtcpState) : Prop where
  contiguous : Contiguous s.queuedSegments
  ends : ∀ seg ∈ s.queuedSegments.getLast?, seg.nextSeqno = s.mostRecentSequenceNumber
  ledger : s.acknowledgedPayloads ++ s.queuedSegments.map CtcpSegment.data = s.queuedPayloads

theorem queueInv_init (block : Bbr) (config : CtcpConfig) :
    QueueInv (ctcpInit env block config) :=
  ⟨.nil, nofun, rfl⟩

theorem queueInv_enqueue (s : CtcpState) (data : List UInt8) (flags : Int) (h : QueueInv s) :
    QueueInv (s.enqueue env data flags) := by
  obtain ⟨hq, hn, hp, ha⟩ := enqueue_queue env s data flags
  refine ⟨?_, ?_, ?_⟩
  · rw [hq, Contiguous, List.isChain_append]
    refine ⟨h.contiguous, .singleton _, fun a hlast b hhead => ?_⟩
    obtain rfl : s.makeSegment env data flags = b := by simpa using hhead
    rw [makeSegment_seqno]
    exact h.ends a hlast
  · rw [hq, hn]
    intro seg hseg
    obtain rfl : s.makeSegment env data flags = seg := by simpa using hseg
    rfl
  · rw [hq, hp, ha, ← h.ledger]
    simp [makeSegment_data]

theorem queueInv_micro {half : Half} {s t : CtcpState} (h : QueueInv s)
    (hstep : Micro env half s t) : QueueInv t := by
  obtain ⟨hn, hp, ⟨hq, ha⟩ | ⟨seg, hq, ha⟩⟩ := micro_queue hstep
  · exact ⟨hq ▸ h.contiguous, hq ▸ hn ▸ h.ends, by rw [hq, hp, ha]; exact h.ledger⟩
  · have hc := h.contiguous
    have he := h.ends
    have hl := h.ledger
    rw [hq] at hc he hl
    refine ⟨hc.tail, fun last hlast => ?_, ?_⟩
    · rw [hn]
      apply he
      rw [List.getLast?_cons]
      simp only [Option.mem_def] at hlast
      rw [hlast]
      rfl
    · rw [ha, hp, ← hl]
      simp

/-- A call queues the payload it passes, if it passes one. -/
theorem queuedPayloads_apply (env : Env) (s : CtcpState) (op : Op) :
    (s.apply env op).queuedPayloads = s.queuedPayloads ++ op.payload?.toList := by
  have same : ∀ {v w : CtcpState}, Micros env v w → w.queuedPayloads = v.queuedPayloads :=
    fun {v w} hvw => chain_invariant (fun w => w.queuedPayloads = v.queuedPayloads)
      (fun hw ⟨_, hm⟩ => (micro_queue hm).2.1.trans hw) hvw rfl
  obtain ⟨data, flags, rfl, chain⟩ | ⟨hne, chain⟩ := apply_micro env s op
  · exact (same chain).trans (enqueue_queue env s data.1 flags).2.2.1
  · have hnone : op.payload? = none := by
      cases op with
      | send data flags => exact absurd rfl (hne data flags)
      | _ => rfl
    rw [same chain, hnone, Option.toList_none, List.append_nil]

/-- What was queued in a run is what the calls of `send_segment` passed. -/
theorem queuedPayloads_run {s u : CtcpState} {ops : List Op} (h : Run (Step env) s ops u) :
    u.queuedPayloads = s.queuedPayloads ++ ops.filterMap Op.payload? := by
  refine Run.history
    (fun ops u => u.queuedPayloads = s.queuedPayloads ++ ops.filterMap Op.payload?)
    (by simp) (fun {is t op u} _ ht hstep => ?_) h
  rw [hstep.2, queuedPayloads_apply, ht, List.filterMap_append, List.append_assoc]
  cases op <;> rfl

/-- **Send-queue integrity.** In every state of every run of a connection the
queued segments are in sequence order and contiguous modulo 2^32, the last
one ends at `most_recent_sequence_number`, and the payloads removed by ACKs
followed by those still queued are all payloads passed to `send_segment` with
`req_ack`, each once and in order. -/
theorem sendQueue_integrity {block : Bbr} {config : CtcpConfig} {ops : List Op}
    {s : CtcpState} (h : Run (Step env) (ctcpInit env block config) ops s) :
    (s.unacknowledgedSegments ++ s.outputPendingSegments).IsChain
      (fun a b => a.segment.seqno + UInt32.ofNat a.segment.data.length = b.segment.seqno) ∧
    (∀ b ∈ (s.unacknowledgedSegments ++ s.outputPendingSegments).getLast?,
      b.segment.seqno + UInt32.ofNat b.segment.data.length = s.mostRecentSequenceNumber) ∧
    s.acknowledgedPayloads ++
        (s.unacknowledgedSegments ++ s.outputPendingSegments).map (·.segment.data) =
      ops.filterMap Op.payload? := by
  have inv : QueueInv s :=
    run_invariant QueueInv (fun s data flags => queueInv_enqueue s data.1 flags)
      queueInv_micro (queueInv_init block config) h
  refine ⟨?_, ?_, ?_⟩
  · exact (List.isChain_map Buf.segment).mp inv.contiguous
  · intro b hb
    apply inv.ends b.segment
    rw [CtcpState.queuedSegments, CtcpState.sendQueue, List.getLast?_map, hb]
    rfl
  · have hl := inv.ledger
    rw [queuedPayloads_run h] at hl
    simpa [CtcpState.queuedSegments, CtcpState.sendQueue, Function.comp_def, ctcpInit,
      CtcpState.queuedPayloads] using hl

/-- Two segments are queued and the first is acknowledged. -/
theorem sendQueue_integrity_two_segments :
    let ops : List Op := [.send ⟨[97, 98], by decide⟩ 16, .send ⟨[99], by decide⟩ 16,
      .receive ⟨1, 3, 20, thAck, 1440, 0, []⟩]
    let s := (CtcpState.fresh (.plain .little)).applyAll (.plain .little) ops
    (s.unacknowledgedSegments ++ s.outputPendingSegments).IsChain
      (fun a b => a.segment.seqno + UInt32.ofNat a.segment.data.length = b.segment.seqno) ∧
    (∀ b ∈ (s.unacknowledgedSegments ++ s.outputPendingSegments).getLast?,
      b.segment.seqno + UInt32.ofNat b.segment.data.length = s.mostRecentSequenceNumber) ∧
    s.acknowledgedPayloads ++
        (s.unacknowledgedSegments ++ s.outputPendingSegments).map (·.segment.data) =
      ops.filterMap Op.payload? :=
  sendQueue_integrity (run_applyAll (by decide +kernel))

end NetLabs.Ctcp
