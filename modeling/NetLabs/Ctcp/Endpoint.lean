/-
NetLabs.Ctcp.Endpoint — `send_segment`, `ctcp_receive` and `ctcp_timer` of
`lab3/ctcp.c`, for one connection.

The code that moves pending segments to `unacknowledged_segments` and
transmits them stands twice in the source, in `send_segment` and inside the
ACK loop of `ctcp_receive`, line for line the same: `admitPending` and `flush` here.
A `return` inside it also leaves `ctcp_receive`; `flush` tells so by its
second component.

The loops over a queue change its elements in place, so they carry the
elements already visited.
-/
import NetLabs.Ctcp.State

namespace NetLabs.Ctcp

open NetLabs.Lib

variable (env : Env)

namespace CtcpState

/-- Append an action to the trace. -/
def log (s : CtcpState) (e : Event) : CtcpState := { s with trace := s.trace ++ [e] }

/-! ## `send_segment` -/

/-- The segment `send_segment` builds, stamped with the sequence and
acknowledgement numbers of the state. -/
def makeSegment (s : CtcpState) (data : List UInt8) (flags : Int) : CtcpSegment :=
  let seg : CtcpSegment :=
    { seqno := s.mostRecentSequenceNumber
      ackno := s.mostRecentReceivedAcknowledgement
      len := UInt16.ofNat (segmentHdrSize + data.length)
      flags := if flags = -1 then 0 else UInt32.ofInt flags
      window := s.sendWindow
      cksum := 0
      data }
  { seg with cksum := NetLabs.cksum env.endian (seg.bytes env.endian) }

/-- The array queued for the segment. `arr[1]` is not initialised. -/
def makeBuf (s : CtcpState) (data : List UInt8) (flags : Int) : Buf where
  addr := s.allocations
  position := s.position
  segment := s.makeSegment env data flags
  sentAt := env.freshLong s.allocations
  sent := 0
  retransmissions := 0
  appLimited := 0
  appLimitedHigh := env.freshHigh s.allocations

/-- `ll_add(state->output_pending_segments, arr)` and the new sequence
number. -/
def enqueue (s : CtcpState) (data : List UInt8) (flags : Int) : CtcpState :=
  { s with
    outputPendingSegments := s.outputPendingSegments ++ [s.makeBuf env data flags]
    mostRecentSequenceNumber := s.mostRecentSequenceNumber + UInt32.ofNat data.length
    allocations := s.allocations + 1
    position := s.position + data.length }.log (.queued (s.makeBuf env data flags))

/-- The branch of `send_segment` without `req_ack`: send, then forget. -/
def sendControl (s : CtcpState) (data : List UInt8) (flags : Int) : CtcpState :=
  { s with
    mostRecentSequenceNumber := s.mostRecentSequenceNumber + UInt32.ofNat data.length
    allocations := s.allocations + 1
    position := s.position + data.length }.log
      (.control s.position (s.makeSegment env data flags))

/-- One turn of the admission loop, on the front `b` of the pending queue. -/
def admitOne (s : CtcpState) (b : Buf) (rest : List Buf) : CtcpState :=
  { s with
    unacknowledgedSegments := s.unacknowledgedSegments ++ [b]
    slidingWindowSizeBytes := s.slidingWindowSizeBytes + b.segment.len
    outputPendingSegments := rest }.log (.admitted b s.slidingWindowSizeBytes)

/-- `while((state->sliding_window_size_bytes < state->send_window) && ..)`,
over the segments of the pending queue. -/
def admitLoop : List Buf → CtcpState → CtcpState
  | [], s => s
  | b :: rest, s =>
      if s.slidingWindowSizeBytes < s.sendWindow then admitLoop rest (s.admitOne b rest) else s

/-- The admission loop. -/
def admitPending (s : CtcpState) : CtcpState := admitLoop s.outputPendingSegments s

/-- `int bdp`. -/
def bdp (s : CtcpState) : Int :=
  toInt (env.float.double
    (env.float.double (s.bbr.rtProp * s.bbr.bottleneckBandwidth : Int) * gain289 env.float))

/-- `transmit_time_for_next_packet` after a segment of `len` bytes, at the
reading `now`. A zero divisor gives an infinity, which is out of the range of
`long`. -/
def nextTransmitTime (s : CtcpState) (len : UInt16) (now : Int) : Int :=
  let rate := env.float.single (s.bbr.pacingGain * env.float.single s.bbr.bottleneckBandwidth)
  if s.maximumBandwidthCaptured ≠ 0xffffffff ∧ s.maximumBandwidthCaptured ≠ 0 then
    if rate = 0 then -9223372036854775808
    else toLong (env.float.single
      (env.float.single now + env.float.single (env.float.single len.toNat / rate)))
  else 0

/-- The array after its segment was sent for the first time. -/
def markSent (s : CtcpState) (b : Buf) : Buf :=
  { b with
    sentAt := env.clock s.ticks
    appLimited := if s.appLimitedUntil > 0 then 1 else b.appLimited
    sent := 1 }

/-- One turn of the transmission loop on a segment not sent yet, which stands
between `visited` and `rest` in `unacknowledged_segments`. -/
def transmitOne (s : CtcpState) (visited : List Buf) (b : Buf) (rest : List Buf) : CtcpState :=
  { s with
    unacknowledgedSegments := visited ++ s.markSent env b :: rest
    lastSendTime := env.clock s.ticks
    inflightData := s.inflightData + b.segment.len.toUInt32
    bbr := { s.bbr with
      dataInProbeBwMode := s.bbr.dataInProbeBwMode + b.segment.len.toNat
      transmitTimeForNextPacket :=
        s.nextTransmitTime env b.segment.len (env.clock (s.ticks + 1)) }
    ticks := s.ticks + 2 }.log (.transmitted b)

/-- `for(current_node = state->unacknowledged_segments->head; ..)`. -/
def transmitLoop : List Buf → List Buf → CtcpState → CtcpState
  | _, [], s => s
  | visited, b :: rest, s =>
      if b.sent = 0 then
        transmitLoop (visited ++ [s.markSent env b]) rest (s.transmitOne env visited b rest)
      else transmitLoop (visited ++ [b]) rest s

/-- What follows the admission loop in both copies. The second component
tells whether one of the two `return`s was taken. -/
def flush (s : CtcpState) : CtcpState × Bool :=
  if s.inflightData ≥ UInt32.ofInt (s.bdp env) ∧ s.bdp env ≠ 0 then (s, true)
  else if s.outputPendingSegments = [] ∧
      s.slidingWindowSizeBytes.toUInt32 - s.inflightData = 0 then
    ({ s with appLimitedUntil := s.inflightData }, true)
  else (transmitLoop env [] s.unacknowledgedSegments s, false)

/-- `send_segment(state, data, data_size, flags, req_ack)`. -/
def sendSegment (s : CtcpState) (data : List UInt8) (flags : Int) (reqAck : Bool) : CtcpState :=
  if reqAck then ((s.enqueue env data flags).admitPending.flush env).1
  else s.sendControl env data flags

/-! ## `ctcp_receive` -/

/-- `ctcp_destroy(state)`. -/
def destroy (s : CtcpState) : CtcpState := { s with alive := false }

/-- The RTT sample of an acknowledged segment. -/
def recordRtt (s : CtcpState) (rtt : Int) : CtcpState :=
  if s.minimumRttCaptured = -1 then
    { s with minimumRttCaptured := rtt, bbr := { s.bbr with rtProp := rtt } }
  else if rtt ≤ s.minimumRttCaptured then
    { s with
      minimumRttCaptured := rtt
      bbr := { s.bbr with
        currentlyExecutingMode :=
          if s.bbr.currentlyExecutingMode = .probeBw then .startup
          else s.bbr.currentlyExecutingMode } }
  else s

/-- `rtt ? (float)((float)len / (float)rtt) : 0.0`. -/
def bandwidthSample (len : UInt16) (rtt : Int) : ℚ :=
  if rtt = 0 then 0
  else env.float.single (env.float.single len.toNat / env.float.single rtt)

/-- The bandwidth sample of an acknowledged segment. -/
def recordBandwidth (s : CtcpState) (b : Buf) (rtt : Int) : CtcpState :=
  let bw := bandwidthSample env b.segment.len rtt
  if s.bbr.rttsHappened = 0 then
    { s with
      maximumBandwidthCaptured := UInt32.ofInt (toLong bw)
      bbr := { s.bbr with
        rttsHappened := s.bbr.rttsHappened + 1
        bottleneckBandwidth := toLong bw } }
  else if b.appLimited = 0 ∧ b.appLimitedHigh = 0 then
    let maximum :=
      if env.float.single s.maximumBandwidthCaptured.toNat < bw then UInt32.ofInt (toLong bw)
      else s.maximumBandwidthCaptured
    let rtts := s.bbr.rttsHappened + 1
    { s with
      maximumBandwidthCaptured := maximum
      bbr := { s.bbr with
        rttsHappened := rtts
        bottleneckBandwidth :=
          if rtts.tmod 10 = 0 ∧ s.bbr.bottleneckBandwidth < maximum.toNat then maximum.toNat
          else s.bbr.bottleneckBandwidth } }
  else s

/-- The measurements on an acknowledged segment and the new window: the part
of the ACK loop that leaves the queues and their counters alone. -/
def measure (s : CtcpState) (b : Buf) : CtcpState :=
  let rtt := env.clock s.ticks - b.sentAt
  let s := ({ s with ticks := s.ticks + 1 }.recordRtt rtt).recordBandwidth env b rtt
  let bbr := onAckBbrStateChk env.float env.wildGain s.bbr
  { s with
    bbr
    configSendWindow := UInt16.ofInt bbr.cwnd
    sendWindow := UInt16.ofInt bbr.cwnd }

/-- The segment `b` leaves the front of `unacknowledged_segments`. -/
def removeFront (s : CtcpState) (b : Buf) (rest : List Buf) : CtcpState :=
  { s with
    appLimitedUntil :=
      if s.appLimitedUntil > 0 then s.appLimitedUntil - b.segment.len.toUInt32
      else s.appLimitedUntil
    slidingWindowSizeBytes := s.slidingWindowSizeBytes - b.segment.len
    inflightData := s.inflightData - b.segment.len.toUInt32
    unacknowledgedSegments := rest }.log (.acknowledged b)

/-- `while(ll_length(state->unacknowledged_segments)>0)`, for at most `fuel`
turns. The second component tells whether the code returned from inside. -/
def ackLoop (ackno : UInt32) : Nat → CtcpState → CtcpState × Bool
  | 0, s => (s, false)
  | fuel + 1, s =>
      match s.unacknowledgedSegments with
      | [] => (s, false)
      | b :: rest =>
          if b.segment.seqno < ackno then
            let s := (s.measure env b).removeFront b rest
            if s.outputPendingSegments = [] then ackLoop ackno fuel s
            else
              let r := s.admitPending.flush env
              if r.2 then r else ackLoop ackno fuel r.1
          else (s, false)

/-- The ACK part of `ctcp_receive`. Every turn removes a segment, so the
number of queued segments bounds the turns. -/
def processAck (s : CtcpState) (seg : CtcpSegment) : CtcpState × Bool :=
  if seg.hasFlag thAck then ackLoop env seg.ackno s.sendQueue.length s else (s, false)

/-- `int data_len`. -/
def dataLen (seg : CtcpSegment) : Int := seg.len.toNat - segmentHdrSize

/-- `ntohl(segment->seqno) < state->second_most_recent_acknowledgement`. -/
def isDuplicate (s : CtcpState) (seg : CtcpSegment) : Prop :=
  seg.seqno < s.secondMostRecentAcknowledgement

instance (s : CtcpState) (seg : CtcpSegment) : Decidable (s.isDuplicate seg) :=
  inferInstanceAs (Decidable (_ < _))

/-- The two acknowledgement fields after a received segment. -/
def recordSeqno (s : CtcpState) (seg : CtcpSegment) : CtcpState :=
  let ack := seg.seqno + UInt32.ofInt (dataLen seg)
  { s with
    mostRecentReceivedAcknowledgement := ack
    secondMostRecentAcknowledgement :=
      if s.isDuplicate seg then s.secondMostRecentAcknowledgement else ack }

/-- `strncpy(dst, src, n)`: the bytes up to the first NUL, then NULs. -/
def strncpy (src : List UInt8) : List UInt8 :=
  src.takeWhile (· ≠ 0) ++ List.replicate (src.length - (src.takeWhile (· ≠ 0)).length) 0

/-- The `n` bytes at `segment->data`. -/
def dataBytes (seg : CtcpSegment) (n : Nat) : List UInt8 :=
  (List.range n).map fun i => seg.data.getD i (env.beyond i)

/-- The data part of `ctcp_receive`. The ACK goes out before the data is
given to `conn_output`. -/
def processData (s : CtcpState) (seg : CtcpSegment) : CtcpState :=
  let t := s.recordSeqno seg
  if seg.len.toNat > segmentHdrSize ∧ ¬ s.isDuplicate seg then
    (t.sendSegment env [] thAck.toNat false).log
      (.output (strncpy (dataBytes env seg (dataLen seg).toNat)))
  else t

/-- `ctcp_receive(state, segment, len)`; the code does not look at `len`. In
the ACK part of the source stands `if(state->connection_state == 1)
ctcp_destroy(state);`, which the test before it makes unreachable. -/
def receive (s : CtcpState) (seg : CtcpSegment) : CtcpState :=
  if seg.hasFlag thFin ∧ s.connectionState = 0 then
    (({ s with connectionState := 1 }.sendSegment env [] thAck.toNat false)).log (.output [])
  else if s.connectionState = 1 then s.destroy
  else
    let r := s.processAck env seg
    if r.2 then r.1 else r.1.processData env seg

/-! ## `ctcp_timer` -/

/-- The body of `if(rtt_minimum_check_for_window_ms < 0)`. -/
def checkRtProp (s : CtcpState) : CtcpState :=
  let bbr := s.bbr
  let bbr := if bbr.currentlyExecutingMode = .probeRtt then
      { bbr with rtProp := s.minimumRttCaptured } else bbr
  let bbr :=
    if bbr.rtProp ≤ sinceChange (env.clock s.ticks) bbr.rttChangeTimestamp ∧
        bbr.currentlyExecutingMode = .probeBw then
      { bbr with probeRttBegin := wrapInt bbr.rttsHappened, currentlyExecutingMode := .probeRtt }
    else bbr
  let bbr :=
    if s.minimumRttCaptured < bbr.rtProp then
      let bbr := { bbr with rtProp := s.minimumRttCaptured }
      let bbr := if bbr.currentlyExecutingMode = .probeRtt then
          { bbr with currentlyExecutingMode := .startup } else bbr
      if bbr.currentlyExecutingMode = .probeBw then
        { bbr with probeRttBegin := wrapInt bbr.rttsHappened, currentlyExecutingMode := .probeRtt }
      else bbr
    else bbr
  -- the third test of the source, `minimum_rtt_captured < rt_prop` again, never succeeds here
  { s with bbr := { bbr with rttMinimumCheckForWindowMs := 10000 }, ticks := s.ticks + 1 }

/-- The part of `ctcp_timer` before the retransmission loop. -/
def timerBbr (s : CtcpState) : CtcpState :=
  let s := if s.lastCtcpTimerCall = 0 then
      { s with lastCtcpTimerCall := UInt32.ofInt (env.clock s.ticks), ticks := s.ticks + 1 }
    else s
  let s := if s.bbr.rttMinimumCheckForWindowMs > 0 then
      { s with
        bbr := { s.bbr with
          rttMinimumCheckForWindowMs := s.bbr.rttMinimumCheckForWindowMs -
            (env.clock s.ticks - s.lastCtcpTimerCall.toNat) }
        lastCtcpTimerCall := UInt32.ofInt (env.clock (s.ticks + 1))
        ticks := s.ticks + 2 }
    else s
  if s.bbr.rttMinimumCheckForWindowMs < 0 then s.checkRtProp env else s

/-- The test of the retransmission loop, which reads the clock. -/
def isDue (s : CtcpState) (b : Buf) : Prop :=
  env.clock s.ticks - b.sentAt > s.rtTimeout ∧ b.retransmissions < 5

instance (s : CtcpState) (b : Buf) : Decidable (s.isDue env b) :=
  inferInstanceAs (Decidable (_ ∧ _))

/-- The array after the timer sent its segment. -/
def markResent (s : CtcpState) (b : Buf) : Buf :=
  { b with sentAt := env.clock (s.ticks + 1), retransmissions := b.retransmissions + 1 }

/-- The timer sends the segment that stands between `visited` and `rest`. -/
def retransmitOne (s : CtcpState) (visited : List Buf) (b : Buf) (rest : List Buf) : CtcpState :=
  { s with
    unacknowledgedSegments := visited ++ s.markResent env b :: rest
    slidingWindowSizeBytes := s.slidingWindowSizeBytes - b.segment.len
    ticks := s.ticks + 2 }.log (.retransmitted b)

/-- `for(curr_segment = curr_state->unacknowledged_segments->head; ..)`. -/
def retransmitLoop : List Buf → List Buf → CtcpState → CtcpState
  | _, [], s => s
  | visited, b :: rest, s =>
      if s.isDue env b then
        if b.retransmissions + 1 ≥ 5 then (s.retransmitOne env visited b rest).destroy
        else
          retransmitLoop (visited ++ [s.markResent env b]) rest (s.retransmitOne env visited b rest)
      else if b.retransmissions ≥ 5 then { s with ticks := s.ticks + 1 }.destroy
      else retransmitLoop (visited ++ [b]) rest { s with ticks := s.ticks + 1 }

/-- The visit of `ctcp_timer()` to one connection of `state_list`. -/
def timer (s : CtcpState) : CtcpState :=
  let s := s.timerBbr env
  retransmitLoop env [] s.unacknowledgedSegments s

end CtcpState

end NetLabs.Ctcp
