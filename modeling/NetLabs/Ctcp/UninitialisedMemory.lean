/-
NetLabs.Ctcp.UninitialisedMemory — does the congestion control depend on what
`malloc` left in the `bbr` record?

`bbr_init_state` leaves nine fields as they were; `ctcp_init` sets one of
them, one is never read, and four are set on entry to the mode that looks at
them. The code reads the other three without ever having set them: two
bandwidths at the test that ends `STARTUP`, and `rtt_change_timestamp` at the
test of `ctcp_timer` for an old propagation time. So two connections that
differ in the memory they started with stay `Alike` as long as each of these
tests comes out the same for both, and are told apart by the first one that
does not (`bbr_independent_iff`).
-/
import NetLabs.Lib.TwoRuns
import NetLabs.Ctcp.BbrModes
import NetLabs.Ctcp.AckHonesty

namespace NetLabs.Ctcp

open NetLabs.Lib

variable {env : Env}

/-! ## What is compared -/

/-- The values the mode took, and the fields the code acts on. -/
structure View where
  modes : List BbrMode
  pacingGain : ℚ
  cwnd : Int
  sendWindow : UInt16
  deriving DecidableEq, Repr

namespace CtcpState

def view (s : CtcpState) (modes : List BbrMode) : View where
  modes
  pacingGain := s.bbr.pacingGain
  cwnd := s.bbr.cwnd
  sendWindow := s.sendWindow

/-- The turns of the ACK loop: the state before each measurement, and the
acknowledged segment. -/
def ackTurns (env : Env) (ackno : UInt32) : Nat → CtcpState → List (CtcpState × Buf)
  | 0, _ => []
  | fuel + 1, s =>
      match s.unacknowledgedSegments with
      | [] => []
      | b :: rest =>
          if b.segment.seqno < ackno then
            let t := (s.measure env b).removeFront b rest
            (s, b) ::
              if t.outputPendingSegments = [] then ackTurns env ackno fuel t
              else
                let r := t.admitPending.flush env
                if r.2 then [] else ackTurns env ackno fuel r.1
          else []

/-- The turns of the ACK loop in `ctcp_receive`. -/
def receiveTurns (env : Env) (s : CtcpState) (seg : CtcpSegment) : List (CtcpState × Buf) :=
  if s.ReachesAck seg ∧ seg.hasFlag thAck then
    ackTurns env seg.ackno s.sendQueue.length s
  else []

/-- What the congestion control comes to in such a turn. -/
def turnView (env : Env) (turn : CtcpState × Buf) : View :=
  (turn.1.measure env turn.2).view (turn.1.measureModes env turn.2)

/-- What the congestion control comes to in a call, after each acknowledged
segment and after each tick. -/
def views (env : Env) (s : CtcpState) : Op → List View
  | .receive seg => (s.receiveTurns env seg).map (turnView env)
  | .timer => [(s.timerBbr env).view (s.timerModes env)]
  | .send _ _ | .control _ => []

/-! ## The tests on memory nobody wrote -/

/-- The state in which `on_ack_bbr_state_chk` is called for `b`. -/
def sampled (env : Env) (s : CtcpState) (b : Buf) : CtcpState :=
  (s.sampleRtt env b).recordBandwidth env b (env.clock s.ticks - b.sentAt)

/-- `on_ack_bbr_state_chk` tests the bandwidths of `STARTUP` when it is called for
`b`. -/
def TestsStartup (env : Env) (s : CtcpState) (b : Buf) : Prop :=
  (s.sampled env b).bbr.currentlyExecutingMode = .startup ∧
    (s.sampled env b).bbr.rttsHappened.tmod 3 = 0

/-- `ctcp_timer` tests the age of the propagation time in `PROBE_BW`. -/
def TestsAge (env : Env) (s : CtcpState) : Prop :=
  (s.countDown env).bbr.rttMinimumCheckForWindowMs < 0 ∧
    (s.countDown env).bbr.currentlyExecutingMode = .probeBw

/-- The propagation time is old if it was set at this time. -/
def IsOld (env : Env) (s : CtcpState) (timestamp : Int64) : Prop :=
  (s.countDown env).bbr.rtProp ≤ sinceChange (env.clock (s.countDown env).ticks) timestamp

end CtcpState

/-- A growth to the 2^62-fold is none: a hundred times it is negative in 64 bits. -/
example : ¬ Bbr.EndsStartup
    { Bbr.cleared with startupBwMostRecent := 4611686018427387904, startupBwLeastRecent := 1 } := by
  decide

/-- If a test is made on acknowledging `turn.2`, it says the same of the two
blocks. -/
def SameStartup (env : Env) (block block' : Bbr) (turn : CtcpState × Buf) : Prop :=
  turn.1.TestsStartup env turn.2 → (block.EndsStartup ↔ block'.EndsStartup)

/-- If the test is made on this tick, it says the same of the two blocks. -/
def SameAge (env : Env) (block block' : Bbr) (s : CtcpState) : Prop :=
  s.TestsAge env →
    (s.IsOld env block.rttChangeTimestamp ↔ s.IsOld env block'.rttChangeTimestamp)

/-- Every test in this call says the same of the two blocks. -/
def SameAnswers (env : Env) (block block' : Bbr) (s : CtcpState) : Op → Prop
  | .receive seg => ∀ turn ∈ s.receiveTurns env seg, SameStartup env block block' turn
  | .timer => SameAge env block block' s
  | .send _ _ | .control _ => True

/-! ## Records that are alike -/

/-- The records of two connections, one started on each block, that agree on
every field the code has set. -/
structure Bbr.Alike (block block' b b' : Bbr) : Prop where
  mode : b'.currentlyExecutingMode = b.currentlyExecutingMode
  rtts : b'.rttsHappened = b.rttsHappened
  cwnd : b'.cwnd = b.cwnd
  check : b'.rttMinimumCheckForWindowMs = b.rttMinimumCheckForWindowMs
  transmit : b'.transmitTimeForNextPacket = b.transmitTimeForNextPacket
  bandwidth : b'.bottleneckBandwidth = b.bottleneckBandwidth
  rtProp : b'.rtProp = b.rtProp
  gain : b'.pacingGain = b.pacingGain
  timestamps : b.rttChangeTimestamp = block.rttChangeTimestamp ∧
    b'.rttChangeTimestamp = block'.rttChangeTimestamp
  startup : (b.EndsStartup ↔ block.EndsStartup) ∧ (b'.EndsStartup ↔ block'.EndsStartup)
  drain : b.currentlyExecutingMode = .drain → b'.drainBegin = b.drainBegin
  probeBw : b.currentlyExecutingMode = .probeBw →
    b'.tempCnterForProbeBw = b.tempCnterForProbeBw ∧ b'.dataInProbeBwMode = b.dataInProbeBwMode
  probeRtt : b.currentlyExecutingMode = .probeRtt → b'.probeRttBegin = b.probeRttBegin

namespace Bbr

variable {block block' b b' : Bbr}

/-- In `STARTUP` the test is on memory nobody wrote. -/
theorem onAck_startup_eq (f : FloatArith) (wild : Int → ℚ) {b : Bbr}
    (hmode : b.currentlyExecutingMode = .startup) :
    onAckBbrStateChk f wild b =
      if b.rttsHappened.tmod 3 = 0 ∧ b.EndsStartup then
        { b with drainBegin := wrapInt b.rttsHappened, currentlyExecutingMode := .drain }
      else
        { b with
          pacingGain := bbrPacingGain f wild 1
          cwnd := toLong (f.single (f.single (f.single b.rtProp * bbrPacingGain f wild 1) *
            f.single b.bottleneckBandwidth)) } := by
  unfold onAckBbrStateChk
  rw [hmode]
  dsimp only
  refine if_congr ?_ rfl rfl
  unfold EndsStartup
  by_cases zero : b.startupBwLeastRecent = 0 <;> simp [zero]

theorem onAck_probeRtt_eq (f : FloatArith) (wild : Int → ℚ) {b : Bbr}
    (hmode : b.currentlyExecutingMode = .probeRtt) :
    onAckBbrStateChk f wild b =
      if b.rttsHappened - b.probeRttBegin ≥ 4 then
        { b with
          dataInProbeBwMode := 0
          tempCnterForProbeBw := 2
          currentlyExecutingMode := .probeBw }
      else
        { b with
          pacingGain := bbrPacingGain f wild 5
          cwnd := toLong (f.single (f.single (b.rtProp * b.bottleneckBandwidth : Int) *
            bbrPacingGain f wild 1)) } := by
  unfold onAckBbrStateChk
  rw [hmode]

theorem onAck_drain_eq (f : FloatArith) (wild : Int → ℚ) {b : Bbr}
    (hmode : b.currentlyExecutingMode = .drain) :
    onAckBbrStateChk f wild b =
      if b.rttsHappened - b.drainBegin ≥ 10 then
        { b with
          currentlyExecutingMode := .probeBw
          dataInProbeBwMode := 0
          tempCnterForProbeBw := 2 }
      else
        { b with
          cwnd := toLong (f.single (f.single (f.single b.rtProp * bbrPacingGain f wild 2) *
            f.single b.bottleneckBandwidth))
          pacingGain := bbrPacingGain f wild 2 } := by
  unfold onAckBbrStateChk
  rw [hmode]

/-- A new round of `PROBE_BW` begins when enough data was sent in this one. -/
def nextRound (b : Bbr) : Bbr :=
  if b.dataInProbeBwMode ≥ (b.rtProp * b.bottleneckBandwidth).tdiv 1000 then
    { b with
      tempCnterForProbeBw := (if b.tempCnterForProbeBw = 8 then 1 else b.tempCnterForProbeBw) + 1
      dataInProbeBwMode := 0 }
  else b

theorem onAck_probeBw_eq (f : FloatArith) (wild : Int → ℚ) {b : Bbr}
    (hmode : b.currentlyExecutingMode = .probeBw) :
    onAckBbrStateChk f wild b =
      { b.nextRound with
        cwnd := toLong (f.single
          (f.single (b.nextRound.bottleneckBandwidth * b.nextRound.rtProp : Int) *
            bbrPacingGain f wild 5))
        pacingGain := bbrPacingGain f wild b.nextRound.tempCnterForProbeBw } := by
  unfold onAckBbrStateChk nextRound
  rw [hmode]

/-- Both records take the same branch. -/
theorem Alike.ite {p p' : Prop} [Decidable p] [Decidable p'] {c c' : Bbr} (test : p' ↔ p)
    (yes : Alike block block' b b') (no : Alike block block' c c') :
    Alike block block' (if p then b else c) (if p' then b' else c') := by
  by_cases holds : p
  · rw [if_pos holds, if_pos (test.mpr holds)]
    exact yes
  · rw [if_neg holds, if_neg fun holds' => holds (test.mp holds')]
    exact no

theorem Alike.mode_iff (h : Alike block block' b b') (mode : BbrMode) :
    b'.currentlyExecutingMode = mode ↔ b.currentlyExecutingMode = mode := by
  rw [h.mode]

/-- `PROBE_BW` is entered. -/
theorem Alike.enterProbeBw (h : Alike block block' b b') :
    Alike block block'
      { b with
        currentlyExecutingMode := .probeBw
        dataInProbeBwMode := 0
        tempCnterForProbeBw := 2 }
      { b' with
        currentlyExecutingMode := .probeBw
        dataInProbeBwMode := 0
        tempCnterForProbeBw := 2 } :=
  { h with
    mode := rfl
    drain := by simp
    probeBw := fun _ => ⟨rfl, rfl⟩
    probeRtt := by simp }

/-- Both records set the gain and the window. -/
theorem Alike.paced (h : Alike block block' b b') (gain : ℚ) {cwnd cwnd' : Int}
    (same : cwnd' = cwnd) :
    Alike block block' { b with pacingGain := gain, cwnd := cwnd }
      { b' with pacingGain := gain, cwnd := cwnd' } :=
  { h with
    cwnd := same
    gain := rfl }

theorem Alike.nextRound (h : Alike block block' b b')
    (hmode : b.currentlyExecutingMode = .probeBw) :
    Alike block block' b.nextRound b'.nextRound := by
  obtain ⟨temp, data⟩ := h.probeBw hmode
  have enough : b'.dataInProbeBwMode ≥ (b'.rtProp * b'.bottleneckBandwidth).tdiv 1000 ↔
      b.dataInProbeBwMode ≥ (b.rtProp * b.bottleneckBandwidth).tdiv 1000 := by
    rw [data, h.rtProp, h.bandwidth]
  unfold Bbr.nextRound
  refine .ite enough ?_ h
  exact { h with probeBw := fun _ => ⟨by simp only [temp], rfl⟩ }

/-- A test of the two bandwidths says of the records what it says of the
blocks. -/
theorem Alike.test_iff (h : Alike block block' b b')
    (same : b.rttsHappened.tmod 3 = 0 → (block.EndsStartup ↔ block'.EndsStartup)) :
    (b'.rttsHappened.tmod 3 = 0 ∧ b'.EndsStartup) ↔
      (b.rttsHappened.tmod 3 = 0 ∧ b.EndsStartup) := by
  rw [h.rtts, h.startup.1, h.startup.2]
  exact and_congr_right fun third => (same third).symm

/-- `on_ack_bbr_state_chk` keeps records alike if its test says the same of
both. -/
theorem Alike.onAck (f : FloatArith) (wild : Int → ℚ) (h : Alike block block' b b')
    (same : b.currentlyExecutingMode = .startup → b.rttsHappened.tmod 3 = 0 →
      (block.EndsStartup ↔ block'.EndsStartup)) :
    Alike block block' (onAckBbrStateChk f wild b) (onAckBbrStateChk f wild b') := by
  cases hmode : b.currentlyExecutingMode with
  | startup =>
    have hmode' := h.mode.trans hmode
    have test := h.test_iff (same hmode)
    rw [onAck_startup_eq f wild hmode, onAck_startup_eq f wild hmode']
    refine .ite test ?_ (h.paced _ (by rw [h.rtProp, h.bandwidth]))
    exact { h with
      mode := rfl
      drain := fun _ => congrArg wrapInt h.rtts
      probeBw := by simp
      probeRtt := by simp }
  | probeRtt =>
    have hmode' := h.mode.trans hmode
    have dwell : b'.rttsHappened - b'.probeRttBegin ≥ 4 ↔
        b.rttsHappened - b.probeRttBegin ≥ 4 := by
      rw [h.rtts, h.probeRtt hmode]
    rw [onAck_probeRtt_eq f wild hmode, onAck_probeRtt_eq f wild hmode']
    exact .ite dwell h.enterProbeBw (h.paced _ (by rw [h.rtProp, h.bandwidth]))
  | probeBw =>
    have hmode' := h.mode.trans hmode
    have round := h.nextRound hmode
    have same : b.nextRound.currentlyExecutingMode = .probeBw := by
      unfold Bbr.nextRound
      split <;> exact hmode
    rw [onAck_probeBw_eq f wild hmode, onAck_probeBw_eq f wild hmode']
    rw [(round.probeBw same).1]
    exact round.paced _ (by rw [round.rtProp, round.bandwidth])
  | drain =>
    have hmode' := h.mode.trans hmode
    have dwell : b'.rttsHappened - b'.drainBegin ≥ 10 ↔ b.rttsHappened - b.drainBegin ≥ 10 := by
      rw [h.rtts, h.drain hmode]
    rw [onAck_drain_eq f wild hmode, onAck_drain_eq f wild hmode']
    exact .ite dwell h.enterProbeBw (h.paced _ (by rw [h.rtProp, h.bandwidth]))

/-- If the test says different things, one record ends `STARTUP` and the other
does not. -/
theorem Alike.onAck_differ (f : FloatArith) (wild : Int → ℚ) (h : Alike block block' b b')
    (hmode : b.currentlyExecutingMode = .startup) (third : b.rttsHappened.tmod 3 = 0)
    (differ : ¬ (block.EndsStartup ↔ block'.EndsStartup)) :
    (onAckBbrStateChk f wild b).currentlyExecutingMode ≠
      (onAckBbrStateChk f wild b').currentlyExecutingMode := by
  have hmode' := h.mode.trans hmode
  have third' : b'.rttsHappened.tmod 3 = 0 := h.rtts ▸ third
  rw [onAck_startup_eq f wild hmode, onAck_startup_eq f wild hmode']
  rw [← h.startup.1, ← h.startup.2] at differ
  by_cases ends : b.EndsStartup
  · have stays' : ¬ b'.EndsStartup := fun ends' => differ ⟨fun _ => ends', fun _ => ends⟩
    rw [if_pos ⟨third, ends⟩, if_neg fun both => stays' both.2]
    simp [hmode']
  · have ends' : b'.EndsStartup := by
      by_contra stays'
      exact differ ⟨fun e => absurd e ends, fun e => absurd e stays'⟩
    rw [if_neg fun both => ends both.2, if_pos ⟨third', ends'⟩]
    simp [hmode]

end Bbr

/-! ## Connections that are alike -/

namespace CtcpState

/-- Two connections that differ in their records only, and these are alike. -/
def Alike (block block' : Bbr) (s s' : CtcpState) : Prop :=
  ∃ b', Bbr.Alike block block' s.bbr b' ∧ s' = { s with bbr := b' }

variable {block block' : Bbr} {s s' : CtcpState}

theorem alike_init (block block' : Bbr) (config : CtcpConfig) :
    Alike block block' (ctcpInit env block config) (ctcpInit env block' config) := by
  refine ⟨_, ?_, rfl⟩
  constructor <;> first | rfl | exact ⟨rfl, rfl⟩ | exact ⟨Iff.rfl, Iff.rfl⟩ | simp [ctcpInit]

/-- What does not look at the record, and leaves it alone. -/
theorem Alike.of_frame {g : CtcpState → CtcpState} (h : Alike block block' s s')
    (frame : ∀ b', g { s with bbr := b' } = { g s with bbr := b' }) :
    Alike block block' (g s) (g s') := by
  obtain ⟨b', alike, rfl⟩ := h
  have same := congrArg CtcpState.bbr (frame s.bbr)
  have same : (g s).bbr = s.bbr := same
  exact ⟨b', same ▸ alike, frame b'⟩

theorem admitLoop_frame (bs : List Buf) (s : CtcpState) (b' : Bbr) :
    admitLoop bs { s with bbr := b' } = { admitLoop bs s with bbr := b' } := by
  induction bs generalizing s with
  | nil => rfl
  | cons b rest ih =>
    unfold admitLoop
    by_cases room : s.slidingWindowSizeBytes < s.sendWindow
    · rw [if_pos room, if_pos room]
      exact ih (s.admitOne b rest)
    · rw [if_neg room, if_neg room]

theorem Alike.admitPending (h : Alike block block' s s') :
    Alike block block' s.admitPending s'.admitPending :=
  h.of_frame (admitLoop_frame s.outputPendingSegments s)

theorem Alike.transmitOne (env : Env) (h : Alike block block' s s') (visited : List Buf) (b : Buf)
    (rest : List Buf) :
    Alike block block' (s.transmitOne env visited b rest) (s'.transmitOne env visited b rest) := by
  obtain ⟨b', alike, rfl⟩ := h
  refine ⟨_, ?_, rfl⟩
  exact { alike with
    transmit := by
      show nextTransmitTime env _ _ _ = nextTransmitTime env _ _ _
      unfold nextTransmitTime
      simp only [alike.gain, alike.bandwidth]
    probeBw := fun mode =>
      ⟨(alike.probeBw mode).1, congrArg (· + (b.segment.len.toNat : Int)) (alike.probeBw mode).2⟩ }

theorem Alike.transmitLoop (env : Env) (h : Alike block block' s s') (visited rest : List Buf) :
    Alike block block' (transmitLoop env visited rest s) (transmitLoop env visited rest s') := by
  induction rest generalizing visited s s' with
  | nil => exact h
  | cons b rest ih =>
    unfold CtcpState.transmitLoop
    split
    · have next := h.transmitOne env visited b rest
      obtain ⟨b', alike, rfl⟩ := h
      exact ih next _
    · exact ih h _

theorem Alike.bdp (env : Env) (h : Alike block block' s s') : s'.bdp env = s.bdp env := by
  obtain ⟨b', alike, rfl⟩ := h
  unfold CtcpState.bdp
  simp only [alike.rtProp, alike.bandwidth]

theorem Alike.flush (env : Env) (h : Alike block block' s s') :
    Alike block block' (s.flush env).1 (s'.flush env).1 ∧
      (s'.flush env).2 = (s.flush env).2 := by
  have bdp : s'.bdp env = s.bdp env := h.bdp env
  have sent := h.transmitLoop env [] s.unacknowledgedSegments
  have limited := h.of_frame (g := fun s => { s with appLimitedUntil := s.inflightData })
    fun _ => rfl
  unfold CtcpState.flush
  rw [bdp]
  obtain ⟨b', alike, rfl⟩ := h
  dsimp only
  split
  · exact ⟨⟨b', alike, rfl⟩, rfl⟩
  · split
    · exact ⟨limited, rfl⟩
    · exact ⟨sent, rfl⟩

theorem Alike.sendSegment (h : Alike block block' s s') (data : List UInt8) (flags : Int)
    (reqAck : Bool) :
    Alike block block' (s.sendSegment env data flags reqAck)
      (s'.sendSegment env data flags reqAck) := by
  cases reqAck with
  | true =>
    have queued := h.of_frame (g := fun s => s.enqueue env data flags) fun _ => rfl
    exact (queued.admitPending.flush env).1
  | false => exact h.of_frame (g := fun s => s.sendControl env data flags) fun _ => rfl

theorem Alike.recordRtt (h : Alike block block' s s') (rtt : Int) :
    Alike block block' (s.recordRtt rtt) (s'.recordRtt rtt) := by
  obtain ⟨b', alike, rfl⟩ := h
  unfold CtcpState.recordRtt
  dsimp only
  split
  · refine ⟨_, ?_, rfl⟩
    exact { alike with rtProp := rfl }
  · split
    · refine ⟨_, ?_, rfl⟩
      by_cases hmode : s.bbr.currentlyExecutingMode = .probeBw
      · rw [alike.mode, hmode]
        exact { alike with
          mode := rfl
          drain := by simp
          probeBw := by simp
          probeRtt := by simp }
      · rw [alike.mode, if_neg hmode]
        exact { alike with mode := rfl }
    · exact ⟨b', alike, rfl⟩

theorem Alike.recordBandwidth (env : Env) (h : Alike block block' s s') (b : Buf) (rtt : Int) :
    Alike block block' (s.recordBandwidth env b rtt) (s'.recordBandwidth env b rtt) := by
  obtain ⟨b', alike, rfl⟩ := h
  unfold CtcpState.recordBandwidth
  dsimp only
  rw [alike.rtts, alike.bandwidth]
  split
  · refine ⟨_, ?_, rfl⟩
    exact { alike with rtts := rfl, bandwidth := rfl }
  · split
    · refine ⟨_, ?_, rfl⟩
      exact { alike with rtts := rfl, bandwidth := rfl }
    · exact ⟨b', alike, rfl⟩

theorem Alike.sampleRtt (env : Env) (h : Alike block block' s s') (b : Buf) :
    Alike block block' (s.sampleRtt env b) (s'.sampleRtt env b) := by
  have ticked := h.of_frame (g := fun s => { s with ticks := s.ticks + 1 }) fun _ => rfl
  have sampled := ticked.recordRtt (env.clock s.ticks - b.sentAt)
  obtain ⟨b', alike, rfl⟩ := h
  exact sampled

theorem Alike.sampled (env : Env) (h : Alike block block' s s') (b : Buf) :
    Alike block block' (s.sampled env b) (s'.sampled env b) := by
  have sampled := (h.sampleRtt env b).recordBandwidth env b
    (env.clock s.ticks - b.sentAt)
  obtain ⟨b', alike, rfl⟩ := h
  exact sampled

/-! ## Comparing calls -/

theorem measure_eq (s : CtcpState) (b : Buf) :
    s.measure env b =
      let bbr := onAckBbrStateChk env.float env.wildGain (s.sampled env b).bbr
      { s.sampled env b with
        bbr
        configSendWindow := UInt16.ofInt bbr.cwnd
        sendWindow := UInt16.ofInt bbr.cwnd } := rfl

/-- Records that are alike show the same. -/
theorem Alike.view (h : Alike block block' s s') (modes : List BbrMode) :
    s'.view modes = s.view modes := by
  obtain ⟨b', alike, rfl⟩ := h
  unfold CtcpState.view
  simp only [alike.gain, alike.cwnd]

theorem Alike.mode (h : Alike block block' s s') :
    s'.bbr.currentlyExecutingMode = s.bbr.currentlyExecutingMode := by
  obtain ⟨b', alike, rfl⟩ := h
  exact alike.mode

/-- A segment is acknowledged. -/
theorem Alike.measure (h : Alike block block' s s') (b : Buf) :
    Compared (SameStartup env block block' (s, b))
      [(s.measure env b).view (s.measureModes env b)]
      [(s'.measure env b).view (s'.measureModes env b)]
      (Alike block block' (s.measure env b) (s'.measure env b)) := by
  obtain ⟨r, alike, sampled⟩ := h.sampled env b
  constructor
  · intro same
    have checked : Bbr.Alike block block' _ _ :=
      alike.onAck env.float env.wildGain fun mode third => same ⟨mode, third⟩
    have next : Alike block block' (s.measure env b) (s'.measure env b) := by
      rw [measure_eq, measure_eq, sampled]
      refine ⟨_, checked, ?_⟩
      simp only [checked.cwnd]
    refine ⟨?_, next⟩
    have first := (h.sampleRtt env b).mode
    rw [next.view, measureModes, measureModes, first, next.mode]
  · intro differ
    obtain ⟨⟨mode, third⟩, differ⟩ := Classical.not_imp.mp differ
    have modes := alike.onAck_differ env.float env.wildGain mode third differ
    refine differ_singleton fun same => modes ?_
    have last := congrArg (fun v : View => v.modes.getLast?) same
    have last : some (s.measure env b).bbr.currentlyExecutingMode =
        some (s'.measure env b).bbr.currentlyExecutingMode := last
    rw [measure_eq, measure_eq, sampled] at last
    exact Option.some.inj last

/-- The loop over the acknowledged segments. -/
theorem Alike.ackLoop (h : Alike block block' s s') (ackno : UInt32) (fuel : Nat) :
    Compared (∀ turn ∈ ackTurns env ackno fuel s, SameStartup env block block' turn)
      ((ackTurns env ackno fuel s).map (turnView env))
      ((ackTurns env ackno fuel s').map (turnView env))
      (Alike block block' (ackLoop env ackno fuel s).1 (ackLoop env ackno fuel s').1 ∧
        (ackLoop env ackno fuel s').2 = (ackLoop env ackno fuel s).2) := by
  induction fuel generalizing s s' with
  | zero => exact (Compared.silent ⟨h, rfl⟩).congr (by simp [ackTurns])
  | succ fuel ih =>
    have queue : s'.unacknowledgedSegments = s.unacknowledgedSegments := by
      obtain ⟨b', alike, rfl⟩ := h
      rfl
    unfold ackTurns CtcpState.ackLoop
    rw [queue]
    cases s.unacknowledgedSegments with
    | nil => exact (Compared.silent ⟨h, rfl⟩).congr (by simp)
    | cons b rest =>
      dsimp only
      by_cases acked : b.segment.seqno < ackno
      · simp only [if_pos acked]
        refine ((h.measure b).append fun measured => ?_).congr List.forall_mem_cons
        have next := measured.of_frame (g := fun s => s.removeFront b rest) fun _ => rfl
        have pending : ((s'.measure env b).removeFront b rest).outputPendingSegments =
            ((s.measure env b).removeFront b rest).outputPendingSegments := by
          obtain ⟨b', -, eq⟩ := next
          rw [eq]
        rw [pending]
        by_cases idle : ((s.measure env b).removeFront b rest).outputPendingSegments = []
        · simp only [if_pos idle]
          exact ih next
        · simp only [if_neg idle]
          obtain ⟨flushed, returned⟩ := next.admitPending.flush env
          rw [returned]
          split
          · exact (Compared.silent ⟨flushed, returned⟩).congr (by simp)
          · exact ih flushed
      · simp only [if_neg acked]
        exact (Compared.silent ⟨h, trivial⟩).congr (by simp)

theorem processData_frame_bbr (s : CtcpState) (seg : CtcpSegment) (b' : Bbr) :
    ({ s with bbr := b' } : CtcpState).processData env seg =
      { s.processData env seg with bbr := b' } := by
  have dup : ({ s with bbr := b' } : CtcpState).isDuplicate seg ↔ s.isDuplicate seg := Iff.rfl
  unfold CtcpState.processData
  simp only [dup]
  split <;> rfl

/-- The ACK part of `ctcp_receive`. -/
theorem Alike.processAck (h : Alike block block' s s') {seg : CtcpSegment}
    (reaches : s.ReachesAck seg) :
    Compared (∀ turn ∈ s.receiveTurns env seg, SameStartup env block block' turn)
      ((s.receiveTurns env seg).map (turnView env)) ((s'.receiveTurns env seg).map (turnView env))
      (Alike block block' (s.processAck env seg).1 (s'.processAck env seg).1 ∧
        (s'.processAck env seg).2 = (s.processAck env seg).2) := by
  have reaches' : s'.ReachesAck seg := by
    obtain ⟨b', -, rfl⟩ := h
    exact reaches
  have queue : s'.sendQueue = s.sendQueue := by
    obtain ⟨b', -, rfl⟩ := h
    rfl
  unfold receiveTurns CtcpState.processAck
  by_cases ack : seg.hasFlag thAck
  · rw [if_pos ⟨reaches, ack⟩, if_pos ⟨reaches', ack⟩, if_pos ack, if_pos ack, queue]
    exact h.ackLoop _ _
  · rw [if_neg fun both => ack both.2, if_neg fun both => ack both.2, if_neg ack, if_neg ack]
    exact (Compared.silent ⟨h, rfl⟩).congr (by simp)

/-- `ctcp_receive`. -/
theorem Alike.receive (h : Alike block block' s s') (seg : CtcpSegment) :
    Compared (SameAnswers env block block' s (.receive seg))
      (s.views env (.receive seg)) (s'.views env (.receive seg))
      (Alike block block' (s.receive env seg) (s'.receive env seg)) := by
  have state : s'.connectionState = s.connectionState := by
    obtain ⟨b', -, rfl⟩ := h
    rfl
  by_cases reaches : s.ReachesAck seg
  · refine (h.processAck reaches).imp fun ⟨acked, returned⟩ => ?_
    unfold CtcpState.receive
    rw [state, if_neg reaches.1, if_neg reaches.2, if_neg reaches.1, if_neg reaches.2]
    dsimp only
    rw [returned]
    split
    · exact acked
    · exact acked.of_frame (g := fun s => s.processData env seg) (processData_frame_bbr _ seg)
  · have silent : s.receiveTurns env seg = [] := by
      unfold receiveTurns
      exact if_neg fun both => reaches both.1
    have silent' : s'.receiveTurns env seg = [] := by
      obtain ⟨b', -, rfl⟩ := h
      unfold receiveTurns
      exact if_neg fun both => reaches both.1
    unfold views SameAnswers
    simp only [silent, silent', List.map_nil]
    refine (Compared.silent ?_).congr (by simp)
    unfold CtcpState.receive
    rw [state]
    by_cases fin : seg.hasFlag thFin ∧ s.connectionState = 0
    · rw [if_pos fin, if_pos fin]
      exact h.of_frame (g := fun s =>
        ({ s with connectionState := 1 }.sendSegment env [] thAck.toNat false).log (.output []))
        fun _ => rfl
    · have closed : s.connectionState = 1 := by
        by_contra notClosed
        exact reaches ⟨fin, notClosed⟩
      rw [if_neg fin, if_neg fin, if_pos closed, if_pos closed]
      exact h.of_frame (g := fun s => s.destroy) fun _ => rfl

/-! ## The timer -/

theorem retransmitLoop_frame (visited rest : List Buf) (s : CtcpState) (b' : Bbr) :
    retransmitLoop env visited rest { s with bbr := b' } =
      { retransmitLoop env visited rest s with bbr := b' } := by
  induction rest generalizing visited s with
  | nil => rfl
  | cons b rest ih =>
    have due : ({ s with bbr := b' } : CtcpState).isDue env b ↔ s.isDue env b := Iff.rfl
    unfold retransmitLoop
    simp only [due]
    split
    · split
      · rfl
      · exact ih _ (s.retransmitOne env visited b rest)
    · split
      · rfl
      · exact ih _ { s with ticks := s.ticks + 1 }

theorem Alike.countDown (env : Env) (h : Alike block block' s s') :
    Alike block block' (s.countDown env) (s'.countDown env) := by
  obtain ⟨b', alike, rfl⟩ := h
  unfold CtcpState.countDown
  dsimp only
  by_cases never : s.lastCtcpTimerCall = 0
  · simp only [if_pos never, alike.check]
    split
    · refine ⟨_, ?_, rfl⟩
      exact { alike with check := rfl }
    · exact ⟨b', alike, rfl⟩
  · simp only [if_neg never, alike.check]
    split
    · refine ⟨_, ?_, rfl⟩
      exact { alike with check := rfl }
    · exact ⟨b', alike, rfl⟩

end CtcpState

namespace Bbr

variable {block block' b b' : Bbr}

theorem Alike.refreshRtProp (h : Alike block block' b b') (minimum : Int) :
    Alike block block' (b.refreshRtProp minimum) (b'.refreshRtProp minimum) := by
  unfold Bbr.refreshRtProp
  exact .ite (h.mode_iff _) { h with rtProp := rfl } h

theorem Alike.beginProbeRtt (h : Alike block block' b b') :
    Alike block block' b.beginProbeRtt b'.beginProbeRtt :=
  { h with
    mode := rfl
    drain := by simp [Bbr.beginProbeRtt]
    probeBw := by simp [Bbr.beginProbeRtt]
    probeRtt := fun _ => congrArg wrapInt h.rtts }

theorem Alike.expireRtProp (h : Alike block block' b b') {now : Int}
    (same : b.currentlyExecutingMode = .probeBw →
      (b.rtProp ≤ sinceChange now block.rttChangeTimestamp ↔
        b.rtProp ≤ sinceChange now block'.rttChangeTimestamp)) :
    Alike block block' (b.expireRtProp now) (b'.expireRtProp now) := by
  unfold Bbr.expireRtProp
  have test : (b'.rtProp ≤ sinceChange now b'.rttChangeTimestamp ∧
        b'.currentlyExecutingMode = .probeBw) ↔
      (b.rtProp ≤ sinceChange now b.rttChangeTimestamp ∧ b.currentlyExecutingMode = .probeBw) := by
    rw [h.mode, h.rtProp, h.timestamps.1, h.timestamps.2]
    exact and_congr_left fun mode => (same mode).symm
  exact .ite test h.beginProbeRtt h

theorem Alike.endProbeRtt (h : Alike block block' b b') :
    Alike block block' b.endProbeRtt b'.endProbeRtt := by
  unfold Bbr.endProbeRtt
  refine .ite (h.mode_iff _) ?_ h
  exact { h with
    mode := rfl
    drain := by simp
    probeBw := by simp
    probeRtt := by simp }

theorem Alike.probeBwToRtt (h : Alike block block' b b') :
    Alike block block' b.probeBwToRtt b'.probeBwToRtt := by
  unfold Bbr.probeBwToRtt
  exact .ite (h.mode_iff _) h.beginProbeRtt h

theorem refreshRtProp_mode (b : Bbr) (minimum : Int) :
    (b.refreshRtProp minimum).currentlyExecutingMode = b.currentlyExecutingMode := by
  unfold Bbr.refreshRtProp
  split <;> rfl

/-- Outside `PROBE_RTT` the first test of the timer does nothing. -/
theorem refreshRtProp_of_probeBw {minimum : Int} (hmode : b.currentlyExecutingMode = .probeBw) :
    b.refreshRtProp minimum = b := by
  unfold Bbr.refreshRtProp
  rw [hmode]
  exact if_neg (by simp)

end Bbr

namespace CtcpState

variable {block block' : Bbr} {s s' : CtcpState}

/-- The three tests of the timer. The second is on memory nobody wrote. -/
theorem Alike.expired (env : Env) (h : Alike block block' s s')
    (same : s.bbr.currentlyExecutingMode = .probeBw →
      (s.bbr.rtProp ≤ sinceChange (env.clock s.ticks) block.rttChangeTimestamp ↔
        s.bbr.rtProp ≤ sinceChange (env.clock s.ticks) block'.rttChangeTimestamp)) :
    Bbr.Alike block block' (s.expired env) (s'.expired env) := by
  obtain ⟨b', alike, rfl⟩ := h
  refine (alike.refreshRtProp s.minimumRttCaptured).expireRtProp fun mode => ?_
  rw [Bbr.refreshRtProp_mode] at mode
  rw [Bbr.refreshRtProp_of_probeBw mode]
  exact same mode

theorem Alike.checkRtProp (env : Env) (h : Alike block block' s s')
    (same : s.bbr.currentlyExecutingMode = .probeBw →
      (s.bbr.rtProp ≤ sinceChange (env.clock s.ticks) block.rttChangeTimestamp ↔
        s.bbr.rtProp ≤ sinceChange (env.clock s.ticks) block'.rttChangeTimestamp)) :
    Alike block block' (s.checkRtProp env) (s'.checkRtProp env) ∧
      s'.checkModes env = s.checkModes env := by
  have expired := h.expired env same
  obtain ⟨b', alike, rfl⟩ := h
  have shortened : Bbr.Alike block block' (s.shortened env)
      (({ s with bbr := b' } : CtcpState).shortened env) := by
    have set : Bbr.Alike block block' { s.expired env with rtProp := s.minimumRttCaptured }
        { ({ s with bbr := b' } : CtcpState).expired env with rtProp := s.minimumRttCaptured } :=
      { expired with rtProp := rfl }
    exact set.endProbeRtt
  have last := shortened.probeBwToRtt
  constructor
  · refine ⟨_, ?_, rfl⟩
    show Bbr.Alike block block' (s.checkRtProp env).bbr
      (({ s with bbr := b' } : CtcpState).checkRtProp env).bbr
    rw [checkRtProp_bbr, checkRtProp_bbr, expired.rtProp]
    dsimp only
    split
    · exact { last with check := rfl }
    · exact { expired with check := rfl }
  · unfold checkModes
    rw [expired.rtProp, expired.mode, shortened.mode, last.mode]

/-- In `PROBE_BW` the mode after the tests tells whether the propagation time
was old. -/
theorem checkRtProp_mode {s : CtcpState} (hmode : s.bbr.currentlyExecutingMode = .probeBw) :
    (s.checkRtProp env).bbr.currentlyExecutingMode =
      if s.bbr.rtProp ≤ sinceChange (env.clock s.ticks) s.bbr.rttChangeTimestamp then
        if s.minimumRttCaptured < s.bbr.rtProp then .startup else .probeRtt
      else if s.minimumRttCaptured < s.bbr.rtProp then .probeRtt else .probeBw := by
  rw [checkRtProp_bbr]
  unfold CtcpState.shortened CtcpState.expired
  rw [Bbr.refreshRtProp_of_probeBw hmode]
  by_cases old : s.bbr.rtProp ≤ sinceChange (env.clock s.ticks) s.bbr.rttChangeTimestamp
  · by_cases smaller : s.minimumRttCaptured < s.bbr.rtProp <;>
      simp [Bbr.expireRtProp, Bbr.beginProbeRtt, Bbr.endProbeRtt, Bbr.probeBwToRtt, hmode, old,
        smaller]
  · by_cases smaller : s.minimumRttCaptured < s.bbr.rtProp <;>
      simp [Bbr.expireRtProp, Bbr.beginProbeRtt, Bbr.endProbeRtt, Bbr.probeBwToRtt, hmode, old,
        smaller]

/-- The last of the values the mode takes is the one it has in the end. -/
theorem checkModes_last (s : CtcpState) :
    (s.checkModes env).getLast? = some (s.checkRtProp env).bbr.currentlyExecutingMode := by
  rw [checkRtProp_bbr]
  unfold checkModes
  split <;> rfl

theorem Alike.checkRtProp_differ (env : Env) (h : Alike block block' s s')
    (hmode : s.bbr.currentlyExecutingMode = .probeBw)
    (differ : ¬ (s.bbr.rtProp ≤ sinceChange (env.clock s.ticks) block.rttChangeTimestamp ↔
      s.bbr.rtProp ≤ sinceChange (env.clock s.ticks) block'.rttChangeTimestamp)) :
    (s.checkRtProp env).bbr.currentlyExecutingMode ≠
      (s'.checkRtProp env).bbr.currentlyExecutingMode := by
  obtain ⟨b', alike, rfl⟩ := h
  rw [checkRtProp_mode hmode, checkRtProp_mode (alike.mode.trans hmode)]
  dsimp only
  rw [alike.rtProp, alike.timestamps.1, alike.timestamps.2]
  by_cases old : s.bbr.rtProp ≤ sinceChange (env.clock s.ticks) block.rttChangeTimestamp
  · have fresh' : ¬ s.bbr.rtProp ≤ sinceChange (env.clock s.ticks) block'.rttChangeTimestamp :=
      fun old' => differ ⟨fun _ => old', fun _ => old⟩
    rw [if_pos old, if_neg fresh']
    split <;> simp
  · have old' : s.bbr.rtProp ≤ sinceChange (env.clock s.ticks) block'.rttChangeTimestamp := by
      by_contra fresh'
      exact differ ⟨fun e => absurd e old, fun e => absurd e fresh'⟩
    rw [if_neg old, if_pos old']
    split <;> simp

/-- A visit of the timer. -/
theorem Alike.timerBbr (h : Alike block block' s s') :
    Compared (SameAge env block block' s)
      [(s.timerBbr env).view (s.timerModes env)] [(s'.timerBbr env).view (s'.timerModes env)]
      (Alike block block' (s.timerBbr env) (s'.timerBbr env)) := by
  have counted := h.countDown env
  have runsOut : (s'.countDown env).bbr.rttMinimumCheckForWindowMs =
      (s.countDown env).bbr.rttMinimumCheckForWindowMs := by
    obtain ⟨b', alike, eq⟩ := counted
    rw [eq]
    exact alike.check
  rw [timerBbr_eq, timerBbr_eq, timerModes, timerModes, runsOut]
  by_cases out : (s.countDown env).bbr.rttMinimumCheckForWindowMs < 0
  · rw [if_pos out, if_pos out, if_pos out, if_pos out]
    constructor
    · intro same
      obtain ⟨checked, modes⟩ := counted.checkRtProp env fun mode => same ⟨out, mode⟩
      exact ⟨by rw [checked.view, modes], checked⟩
    · intro differ
      obtain ⟨⟨-, mode⟩, differ⟩ := Classical.not_imp.mp differ
      have modes := counted.checkRtProp_differ env mode differ
      refine differ_singleton fun same => modes ?_
      have last := congrArg (fun v : View => v.modes.getLast?) same
      have last : ((s.countDown env).checkModes env).getLast? =
          ((s'.countDown env).checkModes env).getLast? := last
      rw [checkModes_last, checkModes_last] at last
      exact Option.some.inj last
  · rw [if_neg out, if_neg out, if_neg out, if_neg out]
    refine ⟨fun _ => ⟨by rw [counted.view], counted⟩, fun differ => ?_⟩
    exact (differ fun tests => absurd tests.1 out).elim

theorem Alike.timer (env : Env) (h : Alike block block' s s') :
    Compared (SameAge env block block' s) (s.views env .timer) (s'.views env .timer)
      (Alike block block' (s.timer env) (s'.timer env)) :=
  h.timerBbr.imp fun visited =>
    visited.of_frame (g := fun t => retransmitLoop env [] t.unacknowledgedSegments t)
      (retransmitLoop_frame [] _ _)

/-- A call on two connections that are alike. -/
theorem Alike.apply (env : Env) (h : Alike block block' s s') (op : Op) :
    Compared (SameAnswers env block block' s op) (s.views env op) (s'.views env op)
      (Alike block block' (s.apply env op) (s'.apply env op)) := by
  cases op with
  | send data flags => exact .silent (h.sendSegment data.1 flags true)
  | control flags => exact .silent (h.sendSegment [] flags false)
  | receive seg => exact h.receive seg
  | timer => exact h.timer env

end CtcpState

/-! ## Runs -/

/-- Two connections, started on different blocks, through the same calls. -/
theorem CtcpState.alike_run (env : Env) (block block' : Bbr) (config : CtcpConfig)
    (ops : List Op) :
    Compared
      (Along (CtcpState.apply env) (SameAnswers env block block') (ctcpInit env block config) ops)
      (shown (CtcpState.apply env) (CtcpState.views env) (ctcpInit env block config) ops)
      (shown (CtcpState.apply env) (CtcpState.views env) (ctcpInit env block' config) ops)
      (Alike block block' (ops.foldl (CtcpState.apply env) (ctcpInit env block config))
        (ops.foldl (CtcpState.apply env) (ctcpInit env block' config))) :=
  compared_shown (fun alike => alike.apply env _) (CtcpState.alike_init block block' config) ops

/-- Three fields are all the congestion control takes from the memory it
started with: blocks that agree on these are as good as one another. -/
theorem bbr_independent_of_agree (env : Env) {block block' : Bbr} (config : CtcpConfig)
    (startup : block.EndsStartup ↔ block'.EndsStartup)
    (timestamp : block.rttChangeTimestamp = block'.rttChangeTimestamp) (ops : List Op) :
    shown (CtcpState.apply env) (CtcpState.views env) (ctcpInit env block config) ops =
      shown (CtcpState.apply env) (CtcpState.views env) (ctcpInit env block' config) ops := by
  refine ((CtcpState.alike_run env block block' config ops).same ?_).1
  refine .of_forall (fun s op => ?_) _ ops
  cases op with
  | send data flags => trivial
  | control flags => trivial
  | receive seg => exact fun _ _ _ => startup
  | timer => exact fun _ => by rw [timestamp]

end NetLabs.Ctcp
