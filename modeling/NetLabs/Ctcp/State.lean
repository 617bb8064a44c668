/-
NetLabs.Ctcp.State — the connection state of `lab3/ctcp.c`.

`CtcpState` is `struct ctcp_state` with the two segment queues as lists and
`bbr` and the fields of `ctcp_config` the code reads inline.
`sequence_number_last_accepted` and `recv_window` are set once and never
read; they are left out, and so is the `bdp.txt` log.

Four fields are not in the source and nothing the code decides depends on
them. `alive` is false once `ctcp_destroy` has freed the state. `allocations`
numbers the segments `send_segment` allocates, so that `addr` tells two
queued segments apart as their addresses do. `position` counts the stream
bytes given to `send_segment`, without the wrap-around of
`most_recent_sequence_number`. `trace` records what the code did, one `Event`
for each elementary action.
-/
import NetLabs.Ctcp.Segment
import NetLabs.Ctcp.Bbr

namespace NetLabs.Ctcp

open NetLabs.Lib

/-! ## The environment -/

/-- What the code meets and does not control: the byte order, the rounding of
floating point, the readings of `current_time()`, and memory nobody wrote.

`clock` lists the readings whose value the code uses. The busy wait before a
transmission discards the readings before the one it waits for, and the
readings printed to `bdp.txt` go nowhere else; both are left out. -/
structure Env where
  endian : Endian
  float : FloatArith
  /-- The readings of `current_time()`, in order. -/
  clock : Nat → Int
  /-- What `malloc(sizeof(long))` finds in `arr[1]`, by allocation. -/
  freshLong : Nat → Int
  /-- The four bytes behind the `int` `arr[4]`, by allocation. -/
  freshHigh : Nat → UInt32
  /-- What an index outside `bbr_pacing_gain` reads. -/
  wildGain : Int → ℚ
  /-- The bytes behind the end of a received segment. -/
  beyond : Nat → UInt8

/-! ## The state -/

/-- The array `arr` that `send_segment` queues for a segment. -/
structure Buf where
  addr : Nat
  position : Nat
  /-- `arr[0]` -/
  segment : CtcpSegment
  /-- `arr[1]`, the time of the last transmission -/
  sentAt : Int
  /-- `arr[2]`, set by the first transmission -/
  sent : Int
  /-- `arr[3]`, the number of retransmissions by the timer -/
  retransmissions : Int
  /-- `arr[4]`, whether the transmission was application limited -/
  appLimited : Int
  /-- the bytes `*((long*)arr[4])` reads behind the `int` -/
  appLimitedHigh : UInt32
  deriving DecidableEq, Repr

/-- An elementary action of the code on a connection. -/
inductive Event where
  /-- A segment was appended to `output_pending_segments`. -/
  | queued (b : Buf)
  /-- A segment moved to `unacknowledged_segments`, with the value of
  `sliding_window_size_bytes` before. -/
  | admitted (b : Buf) (sliding : UInt16)
  /-- A segment was sent by the loop for segments not sent yet. -/
  | transmitted (b : Buf)
  /-- A segment was sent by the timer. -/
  | retransmitted (b : Buf)
  /-- A segment was removed from `unacknowledged_segments` by an ACK. -/
  | acknowledged (b : Buf)
  /-- A segment was sent without being queued. -/
  | control (position : Nat) (segment : CtcpSegment)
  /-- `conn_output` was called with this data; no data signals EOF. -/
  | output (data : List UInt8)
  deriving DecidableEq, Repr

/-- `struct ctcp_state`. -/
structure CtcpState where
  bbr : Bbr
  configSendWindow : UInt16
  rtTimeout : Int
  mostRecentSequenceNumber : UInt32
  mostRecentReceivedAcknowledgement : UInt32
  secondMostRecentAcknowledgement : UInt32
  sendWindow : UInt16
  slidingWindowSizeBytes : UInt16
  connectionState : UInt32
  lastCtcpTimerCall : UInt32
  lastSendTime : Int
  minimumRttCaptured : Int
  maximumBandwidthCaptured : UInt32
  inflightData : UInt32
  appLimitedUntil : UInt32
  unacknowledgedSegments : List Buf
  outputPendingSegments : List Buf
  alive : Bool
  allocations : Nat
  position : Nat
  /-- The number of clock readings so far. -/
  ticks : Nat
  trace : List Event
  deriving DecidableEq, Repr

/-- The fields of `ctcp_config_t` the code reads. -/
structure CtcpConfig where
  sendWindow : UInt16
  rtTimeout : Int
  deriving DecidableEq, Repr

/-- `ctcp_init(conn, ctcp_config)`; `block` is the memory of the `bbr`
record. -/
def ctcpInit (env : Env) (block : Bbr) (config : CtcpConfig) : CtcpState where
  bbr := { bbrInitState env.float env.wildGain block with
    cwnd := config.sendWindow.toNat
    currentlyExecutingMode := .startup }
  configSendWindow := config.sendWindow
  rtTimeout := config.rtTimeout
  mostRecentSequenceNumber := 1
  mostRecentReceivedAcknowledgement := 1
  secondMostRecentAcknowledgement := 1
  sendWindow := config.sendWindow
  slidingWindowSizeBytes := 0
  connectionState := 0
  lastCtcpTimerCall := 0
  lastSendTime := 0
  minimumRttCaptured := -1
  maximumBandwidthCaptured := 0xffffffff
  inflightData := 0
  appLimitedUntil := 0
  unacknowledgedSegments := []
  outputPendingSegments := []
  alive := true
  allocations := 0
  position := 0
  ticks := 0
  trace := []

/-- A concrete environment: exact arithmetic, a second between two readings
of the clock, and cleared memory. -/
def Env.plain (endian : Endian) : Env where
  endian
  float := .exact
  clock k := 1000 * (k + 1)
  freshLong _ := 0
  freshHigh _ := 0
  wildGain _ := 0
  beyond _ := 0

/-- A cleared `bbr` record. -/
def Bbr.cleared : Bbr where
  currentlyExecutingMode := .startup
  rttsHappened := 0
  rttChangeTimestamp := 0
  cwnd := 0
  rttMinimumCheckForWindowMs := 0
  transmitTimeForNextPacket := 0
  bottleneckBandwidth := 0
  rtProp := 0
  pacingGain := 0
  startupBwMostRecent := 0
  startupBwLeastRecent := 0
  drainBegin := 0
  tempCnterForProbeBw := 0
  dataInProbeBwMode := 0
  probeRttBegin := 0

/-- A connection with the values `ctcp_sys` starts with, on cleared memory. -/
def CtcpState.fresh (env : Env) : CtcpState :=
  ctcpInit env .cleared { sendWindow := 1440, rtTimeout := 200 }

/-! ## What a trace says -/

/-- The segment an action handed to `conn_send`. -/
def Event.connSend? : Event → Option CtcpSegment
  | .transmitted b => some b.segment
  | .retransmitted b => some b.segment
  | .control _ seg => some seg
  | _ => none

/-- The queued segment an action handed to `conn_send`. -/
def Event.sentBuf? : Event → Option Buf
  | .transmitted b => some b
  | .retransmitted b => some b
  | _ => none

/-- The data an action handed to `conn_output`. -/
def Event.outputData : Event → List UInt8
  | .output data => data
  | _ => []

/-- The payload an acknowledgement removed from the send queue. -/
def Event.acknowledgedPayload? : Event → Option (List UInt8)
  | .acknowledged b => some b.segment.data
  | _ => none

/-- The bytes handed to `conn_output` so far. -/
def CtcpState.delivered (s : CtcpState) : List UInt8 := s.trace.flatMap Event.outputData

/-- Both queues, oldest segment first. -/
def CtcpState.sendQueue (s : CtcpState) : List Buf :=
  s.unacknowledgedSegments ++ s.outputPendingSegments

end NetLabs.Ctcp
