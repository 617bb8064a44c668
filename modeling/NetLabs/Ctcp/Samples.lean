/-
NetLabs.Ctcp.Samples — the events that measure, and everything else.

The estimates of a connection (the `bbr` record, `minimum_rtt_captured`,
`maximum_bandwidth_captured`, the window and the countdown of `ctcp_timer`)
are assigned in two places only: on each acknowledged segment (`measure`) and
on each visit of `ctcp_timer` before its retransmission loop (`timerBbr`).
The rest of the code is `Idle`: of these fields it touches the two that
pacing keeps for itself. `apply_relation` is the rule for a call, and
`run_samples` makes every run of the connection a run of `SampleStep`, the
machine on which the estimates are studied.
-/
import NetLabs.Ctcp.Steps

namespace NetLabs.Ctcp

open NetLabs.Lib

variable {env : Env}

/-! ## Updates that measure nothing -/

/-- The estimates are left alone, but for the two fields that pacing keeps. -/
structure Idle (s t : CtcpState) : Prop where
  bbr : t.bbr = { s.bbr with
    dataInProbeBwMode := t.bbr.dataInProbeBwMode
    transmitTimeForNextPacket := t.bbr.transmitTimeForNextPacket }
  minimum : t.minimumRttCaptured = s.minimumRttCaptured
  maximum : t.maximumBandwidthCaptured = s.maximumBandwidthCaptured
  window : t.sendWindow = s.sendWindow
  lastCall : t.lastCtcpTimerCall = s.lastCtcpTimerCall

theorem Idle.refl (s : CtcpState) : Idle s s := ⟨rfl, rfl, rfl, rfl, rfl⟩

theorem Idle.trans {s t u : CtcpState} (h : Idle s t) (h' : Idle t u) : Idle s u := by
  refine ⟨?_, h'.minimum.trans h.minimum, h'.maximum.trans h.maximum, h'.window.trans h.window,
    h'.lastCall.trans h.lastCall⟩
  have first := h.bbr
  rw [h'.bbr, first]

theorem admitFlush_idle (env : Env) (s : CtcpState) : Idle s (s.admitPending.flush env).1 := by
  apply admitFlush_relation Idle .refl .trans
  case admits => exact fun _ _ _ => ⟨rfl, rfl, rfl, rfl, rfl⟩
  case transmit => exact fun _ _ _ _ => ⟨rfl, rfl, rfl, rfl, rfl⟩
  case limit => exact fun _ => ⟨rfl, rfl, rfl, rfl, rfl⟩

theorem sendSegment_idle (s : CtcpState) (data : List UInt8) (flags : Int) (reqAck : Bool) :
    Idle s (s.sendSegment env data flags reqAck) := by
  cases reqAck with
  | true =>
    have queued : Idle s (s.enqueue env data flags) := ⟨rfl, rfl, rfl, rfl, rfl⟩
    exact queued.trans (admitFlush_idle env _)
  | false => exact ⟨rfl, rfl, rfl, rfl, rfl⟩

theorem processData_idle (env : Env) (s : CtcpState) (seg : CtcpSegment) :
    Idle s (s.processData env seg) := by
  rw [CtcpState.processData]
  split <;> exact ⟨rfl, rfl, rfl, rfl, rfl⟩

theorem retransmitLoop_idle (env : Env) (visited rest : List Buf) (s : CtcpState) :
    Idle s (CtcpState.retransmitLoop env visited rest s) := by
  apply retransmitLoop_relation Idle .refl .trans
  case resend => exact fun _ _ _ _ => ⟨rfl, rfl, rfl, rfl, rfl⟩
  case destroy => exact fun _ => ⟨rfl, rfl, rfl, rfl, rfl⟩
  case tick => exact fun _ => ⟨rfl, rfl, rfl, rfl, rfl⟩

/-! ## Relations along a call -/

section Relation

variable (R : CtcpState → CtcpState → Prop) (trans : ∀ {s t u}, R s t → R t u → R s u)
  (idle : ∀ {s t}, Idle s t → R s t) (measured : ∀ s b, R s (s.measure env b))

include trans idle measured

/-- A relation that holds along the measurement of a segment and along what
measures nothing holds along `ctcp_receive`. -/
theorem receive_relation (s : CtcpState) (seg : CtcpSegment) : R s (s.receive env seg) := by
  have acks : R s (s.processAck env seg).1 := by
    apply processAck_relation R (fun s => idle (.refl s)) trans
    case remove =>
      intro s b rest _
      have gone : Idle (s.measure env b) ((s.measure env b).removeFront b rest) :=
        ⟨rfl, rfl, rfl, rfl, rfl⟩
      exact trans (measured s b) (idle gone)
    case flush =>
      intro s
      exact idle (admitFlush_idle env s)
  apply receive_elim
  case fin =>
    intro _ _
    exact idle ⟨rfl, rfl, rfl, rfl, rfl⟩
  case closed =>
    intro _
    exact idle ⟨rfl, rfl, rfl, rfl, rfl⟩
  case early =>
    intro _ _ _
    exact acks
  case late =>
    intro _ _ _
    exact trans acks (idle (processData_idle env _ seg))

/-- If it holds along the visit of the timer as well, it holds along every
call. -/
theorem apply_relation (visited : ∀ s, R s (s.timerBbr env)) (s : CtcpState) (op : Op) :
    R s (s.apply env op) := by
  cases op with
  | send data flags => exact idle (sendSegment_idle s data.1 flags true)
  | control flags => exact idle (sendSegment_idle s [] flags false)
  | receive seg => exact receive_relation R trans idle measured s seg
  | timer => exact trans (visited s) (idle (retransmitLoop_idle env _ _ _))

end Relation

/-! ## An acknowledged segment

What `measure` computes, as functions of the state before and of the RTT. -/

namespace CtcpState

/-- The RTT the code measures when `b` is acknowledged. -/
def rtt (env : Env) (s : CtcpState) (b : Buf) : Int := env.clock s.ticks - b.sentAt

/-- `minimum_rtt_captured` after the sample; -1 stands for no sample. -/
def nextMinimum (s : CtcpState) (rtt : Int) : Int :=
  if s.minimumRttCaptured = -1 ∨ rtt ≤ s.minimumRttCaptured then rtt else s.minimumRttCaptured

/-- `rt_prop` after the sample. -/
def nextRtProp (s : CtcpState) (rtt : Int) : Int :=
  if s.minimumRttCaptured = -1 then rtt else s.bbr.rtProp

/-- The mode in which `on_ack_bbr_state_chk` is called. -/
def nextMode (s : CtcpState) (rtt : Int) : BbrMode :=
  if s.minimumRttCaptured ≠ -1 ∧ rtt ≤ s.minimumRttCaptured ∧
      s.bbr.currentlyExecutingMode = .probeBw then .startup
  else s.bbr.currentlyExecutingMode

/-- The first sample counts, and every later one whose `*((long*)arr[4])`
reads 0. -/
def counts (s : CtcpState) (b : Buf) : Prop :=
  s.bbr.rttsHappened = 0 ∨ b.appLimited = 0 ∧ b.appLimitedHigh = 0

instance (s : CtcpState) (b : Buf) : Decidable (s.counts b) :=
  inferInstanceAs (Decidable (_ ∨ _))

/-- `rtts_happened` after the sample. -/
def nextRtts (s : CtcpState) (b : Buf) : Int :=
  if s.counts b then s.bbr.rttsHappened + 1 else s.bbr.rttsHappened

/-- `maximum_bandwidth_captured` after the sample. -/
def nextMaximum (env : Env) (s : CtcpState) (b : Buf) (rtt : Int) : UInt32 :=
  let bw := bandwidthSample env b.segment.len rtt
  if s.bbr.rttsHappened = 0 ∨
      s.counts b ∧ env.float.single s.maximumBandwidthCaptured.toNat < bw then
    UInt32.ofInt (toLong bw)
  else s.maximumBandwidthCaptured

/-- `bottleneck_bandwidth` after the sample: the first sample, then the
maximum of the samples at every tenth one. -/
def nextBandwidth (env : Env) (s : CtcpState) (b : Buf) (rtt : Int) : Int :=
  if s.bbr.rttsHappened = 0 then toLong (bandwidthSample env b.segment.len rtt)
  else if s.counts b ∧ (s.nextRtts b).tmod 10 = 0 ∧
      s.bbr.bottleneckBandwidth < (s.nextMaximum env b rtt).toNat then
    (s.nextMaximum env b rtt).toNat
  else s.bbr.bottleneckBandwidth

/-- The record `on_ack_bbr_state_chk` is called with. -/
def sampledBbr (env : Env) (s : CtcpState) (b : Buf) (rtt : Int) : Bbr :=
  { s.bbr with
    currentlyExecutingMode := s.nextMode rtt
    rttsHappened := s.nextRtts b
    bottleneckBandwidth := s.nextBandwidth env b rtt
    rtProp := s.nextRtProp rtt }

theorem recordRtt_eq (s : CtcpState) (rtt : Int) :
    s.recordRtt rtt = { s with
      minimumRttCaptured := s.nextMinimum rtt
      bbr := { s.bbr with
        currentlyExecutingMode := s.nextMode rtt
        rtProp := s.nextRtProp rtt } } := by
  by_cases none : s.minimumRttCaptured = -1
  · simp [recordRtt, nextMinimum, nextMode, nextRtProp, none]
  · by_cases less : rtt ≤ s.minimumRttCaptured
    · simp [recordRtt, nextMinimum, nextMode, nextRtProp, none, less]
    · simp [recordRtt, nextMinimum, nextMode, nextRtProp, none, less]

theorem recordBandwidth_eq (env : Env) (s : CtcpState) (b : Buf) (rtt : Int) :
    s.recordBandwidth env b rtt = { s with
      maximumBandwidthCaptured := s.nextMaximum env b rtt
      bbr := { s.bbr with
        rttsHappened := s.nextRtts b
        bottleneckBandwidth := s.nextBandwidth env b rtt } } := by
  by_cases first : s.bbr.rttsHappened = 0
  · simp [recordBandwidth, nextMaximum, nextRtts, nextBandwidth, counts, first]
  · by_cases limited : b.appLimited = 0 ∧ b.appLimitedHigh = 0
    · simp [recordBandwidth, nextMaximum, nextRtts, nextBandwidth, counts, first, limited]
    · simp [recordBandwidth, nextMaximum, nextRtts, nextBandwidth, counts, first, limited]

/-- What an acknowledged segment does to the estimates. -/
theorem measure_sampledBbr (env : Env) (s : CtcpState) (b : Buf) :
    s.measure env b =
      let bbr := onAckBbrStateChk env.float env.wildGain (s.sampledBbr env b (s.rtt env b))
      { s with
        ticks := s.ticks + 1
        minimumRttCaptured := s.nextMinimum (s.rtt env b)
        maximumBandwidthCaptured := s.nextMaximum env b (s.rtt env b)
        bbr
        configSendWindow := UInt16.ofInt bbr.cwnd
        sendWindow := UInt16.ofInt bbr.cwnd } := by
  rw [measure, recordRtt_eq, recordBandwidth_eq]
  rfl

end CtcpState

/-! ## The end of an acknowledgement

A call of `on_ack_bbr_state_chk` leaves its mode, or sets the window and the
gain. -/

namespace Bbr

/-- What the test of `STARTUP` says of the two bandwidths in a record. -/
def EndsStartup (b : Bbr) : Prop :=
  b.startupBwLeastRecent = 0 ∨
    (b.startupBwMostRecent - b.startupBwLeastRecent) / b.startupBwLeastRecent * 100 > 25

instance (b : Bbr) : Decidable b.EndsStartup := inferInstanceAs (Decidable (_ ∨ _))

/-- `on_ack_bbr_state_chk` leaves the mode. -/
def Leaves (b : Bbr) : Prop :=
  match b.currentlyExecutingMode with
  | .startup => b.rttsHappened.tmod 3 = 0 ∧ b.EndsStartup
  | .drain => b.rttsHappened - b.drainBegin ≥ 10
  | .probeBw => False
  | .probeRtt => b.rttsHappened - b.probeRttBegin ≥ 4

instance (b : Bbr) : Decidable b.Leaves := by
  unfold Leaves
  split <;> infer_instance

/-- `on_ack_bbr_state_chk` estimates nothing. -/
theorem onAck_keeps (f : FloatArith) (wild : Int → ℚ) (b : Bbr) :
    (onAckBbrStateChk f wild b).rtProp = b.rtProp ∧
    (onAckBbrStateChk f wild b).bottleneckBandwidth = b.bottleneckBandwidth ∧
    (onAckBbrStateChk f wild b).rttMinimumCheckForWindowMs = b.rttMinimumCheckForWindowMs := by
  cases mode : b.currentlyExecutingMode <;> simp only [onAckBbrStateChk, mode] <;> split <;>
    exact ⟨rfl, rfl, rfl⟩

/-- `on_ack_bbr_state_chk` counts no sample. -/
theorem onAck_rttsHappened (f : FloatArith) (wild : Int → ℚ) (b : Bbr) :
    (onAckBbrStateChk f wild b).rttsHappened = b.rttsHappened := by
  cases mode : b.currentlyExecutingMode <;> simp only [onAckBbrStateChk, mode] <;> split <;> rfl

/-- A call that leaves the mode leaves the window and the gain alone. -/
theorem onAck_leaves (f : FloatArith) (wild : Int → ℚ) {b : Bbr} (leaves : b.Leaves) :
    (onAckBbrStateChk f wild b).cwnd = b.cwnd ∧
    (onAckBbrStateChk f wild b).pacingGain = b.pacingGain := by
  rw [Leaves] at leaves
  cases mode : b.currentlyExecutingMode with
  | startup =>
    simp only [mode, EndsStartup] at leaves
    simp only [onAckBbrStateChk, mode]
    rw [if_pos (by tauto)]
    exact ⟨rfl, rfl⟩
  | drain | probeRtt =>
    simp only [mode] at leaves
    simp only [onAckBbrStateChk, mode, if_pos leaves]
    exact ⟨trivial, trivial⟩
  | probeBw =>
    simp only [mode] at leaves

section Stays

variable (f : FloatArith) (wild : Int → ℚ) {b : Bbr} (stays : ¬ b.Leaves)

include stays

/-- A call that stays in `STARTUP` sets the gain and the window. -/
theorem onAck_startup_stays (mode : b.currentlyExecutingMode = .startup) :
    onAckBbrStateChk f wild b = { b with
      pacingGain := bbrPacingGain f wild 1
      cwnd := toLong (f.single (f.single (f.single b.rtProp * bbrPacingGain f wild 1) *
        f.single b.bottleneckBandwidth)) } := by
  simp only [Leaves, EndsStartup, mode] at stays
  simp only [onAckBbrStateChk, mode]
  rw [if_neg (by tauto)]

/-- A call that stays in `DRAIN` sets the gain and the window. -/
theorem onAck_drain_stays (mode : b.currentlyExecutingMode = .drain) :
    onAckBbrStateChk f wild b = { b with
      cwnd := toLong (f.single (f.single (f.single b.rtProp * bbrPacingGain f wild 2) *
        f.single b.bottleneckBandwidth))
      pacingGain := bbrPacingGain f wild 2 } := by
  simp only [Leaves, mode] at stays
  simp only [onAckBbrStateChk, mode, if_neg stays]

/-- A call that stays in `PROBE_RTT` sets the gain and the window. -/
theorem onAck_probeRtt_stays (mode : b.currentlyExecutingMode = .probeRtt) :
    onAckBbrStateChk f wild b = { b with
      pacingGain := bbrPacingGain f wild 5
      cwnd := toLong (f.single (f.single (b.rtProp * b.bottleneckBandwidth : Int) *
        bbrPacingGain f wild 1)) } := by
  simp only [Leaves, mode] at stays
  simp only [onAckBbrStateChk, mode, if_neg stays]

end Stays

end Bbr

/-! ## A visit of the timer -/

/-- What a visit of `ctcp_timer` may do to the estimates. -/
structure Ticked (s t : CtcpState) : Prop where
  bbr : t.bbr = { s.bbr with
    currentlyExecutingMode := t.bbr.currentlyExecutingMode
    rttMinimumCheckForWindowMs := t.bbr.rttMinimumCheckForWindowMs
    rtProp := t.bbr.rtProp
    probeRttBegin := t.bbr.probeRttBegin }
  minimum : t.minimumRttCaptured = s.minimumRttCaptured
  maximum : t.maximumBandwidthCaptured = s.maximumBandwidthCaptured
  window : t.sendWindow = s.sendWindow
  startup : s.bbr.currentlyExecutingMode = .startup → t.bbr.currentlyExecutingMode = .startup
  probeBw : t.bbr.currentlyExecutingMode = .probeBw → s.bbr.currentlyExecutingMode = .probeBw

theorem Ticked.trans {s t u : CtcpState} (h : Ticked s t) (h' : Ticked t u) : Ticked s u := by
  refine ⟨?_, h'.minimum.trans h.minimum, h'.maximum.trans h.maximum, h'.window.trans h.window,
    fun mode => h'.startup (h.startup mode), fun mode => h.probeBw (h'.probeBw mode)⟩
  have first := h.bbr
  rw [h'.bbr, first]

theorem ticked_checkRtProp (s : CtcpState) : Ticked s (s.checkRtProp env) where
  bbr := by
    rw [CtcpState.checkRtProp]
    dsimp only
    split_ifs <;> rfl
  minimum := rfl
  maximum := rfl
  window := rfl
  startup mode := by
    rw [CtcpState.checkRtProp]
    simp only [mode, reduceCtorEq, if_false, and_false]
    split
    · rfl
    · exact mode
  probeBw mode := by
    revert mode
    rw [CtcpState.checkRtProp]
    dsimp only
    split_ifs <;> simp_all

theorem ticked_timerBbr (env : Env) (s : CtcpState) : Ticked s (s.timerBbr env) := by
  apply timerBbr_relation Ticked (fun _ => ⟨rfl, rfl, rfl, rfl, id, id⟩) .trans
  case stamp => exact fun _ _ _ => ⟨rfl, rfl, rfl, rfl, id, id⟩
  case count => exact fun _ _ _ _ => ⟨rfl, rfl, rfl, rfl, id, id⟩
  case check => exact ticked_checkRtProp

/-! ## The machine -/

/-- What happens to the estimates of a connection. -/
inductive Sample where
  /-- A segment is acknowledged, and this RTT measured. -/
  | acked (b : Buf) (rtt : Int)
  /-- `ctcp_timer` visits the connection. -/
  | tick
  /-- Anything else. -/
  | idle

/-- An event, with the state after it. -/
inductive SampleStep (env : Env) : CtcpState → Sample → CtcpState → Prop where
  | acked (s : CtcpState) (b : Buf) : SampleStep env s (.acked b (s.rtt env b)) (s.measure env b)
  | tick (s : CtcpState) : SampleStep env s .tick (s.timerBbr env)
  | idle {s t : CtcpState} (h : Idle s t) : SampleStep env s .idle t

/-- Every run of a connection is a run of this machine. -/
theorem run_samples {s u : CtcpState} {ops : List Op} (h : Run (Step env) s ops u) :
    ∃ samples, Run (SampleStep env) s samples u := by
  let R (s t : CtcpState) : Prop := ∃ samples, Run (SampleStep env) s samples t
  have trans : ∀ {s t u}, R s t → R t u → R s u := by
    rintro _ _ _ ⟨_, hs⟩ ⟨_, ht⟩
    exact ⟨_, hs.trans ht⟩
  refine Run.invariant (R s) ⟨[], .nil⟩ (fun {t op u} ht hstep => ?_) h
  rw [hstep.2]
  exact trans ht (apply_relation R trans (fun hidle => ⟨_, .single (.idle hidle)⟩)
    (fun s b => ⟨_, .single (.acked s b)⟩) (fun s => ⟨_, .single (.tick s)⟩) t op)

end NetLabs.Ctcp
