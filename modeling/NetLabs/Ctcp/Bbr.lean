/-
NetLabs.Ctcp.Bbr — the congestion control of `lab3/ctcp_bbr.c`.

`bbrInitState` takes the block that `malloc` returned, since it leaves nine
fields as they were. One of them, `startup_bw_second_least_recent`, is never
read and left out.

Float expressions follow the C types: `rt_prop * bottleneck_bandwidth * gain`
is an integer product converted to `float`, while
`(float)(rt_prop) * gain * bottleneck_bandwidth` rounds after each factor.
The initialisers `5/4` and `3/4` of the gain table are integer divisions.

Three fields are read although nothing ever sets them: they hold any 64 bits,
and the code computes with them in `long long`, which wraps around as compiled
for x86-64. They are `Int64`. The one quotient out of range, of -2^63 and -1, is
only reached by a subtraction that has overflowed before; it wraps here too.
-/
import NetLabs.Lib.CNumber

namespace NetLabs.Ctcp

open NetLabs.Lib

/-- `enum bbr_mode`. -/
inductive BbrMode where
  | startup
  | drain
  | probeBw
  | probeRtt
  deriving DecidableEq, Repr

/-- `struct bbr`. -/
structure Bbr where
  currentlyExecutingMode : BbrMode
  rttsHappened : Int
  rttChangeTimestamp : Int64
  cwnd : Int
  rttMinimumCheckForWindowMs : Int
  transmitTimeForNextPacket : Int
  bottleneckBandwidth : Int
  rtProp : Int
  pacingGain : ℚ
  startupBwMostRecent : Int64
  startupBwLeastRecent : Int64
  drainBegin : Int
  tempCnterForProbeBw : Int
  dataInProbeBwMode : Int
  probeRttBegin : Int
  deriving DecidableEq, Repr

/-- The constant `2.89`, a `double`. -/
def gain289 (f : FloatArith) : ℚ := f.double (289 / 100)

/-- `bbr_pacing_gain[i]`; `wild` is what an index outside the table reads. -/
def bbrPacingGain (f : FloatArith) (wild : Int → ℚ) (i : Int) : ℚ :=
  match i with
  | 0 => f.single (gain289 f)
  | 1 => f.single (f.double (1 / gain289 f))
  | 2 => 1
  | 3 => 0
  | i => if 4 ≤ i ∧ i ≤ 9 then 1 else wild i

/-- `bbr_init_state()`, with `block` the memory `malloc` returned. -/
def bbrInitState (f : FloatArith) (wild : Int → ℚ) (block : Bbr) : Bbr :=
  { block with
    rttsHappened := 0
    currentlyExecutingMode := .startup
    rttMinimumCheckForWindowMs := 10000
    bottleneckBandwidth := 1440
    pacingGain := bbrPacingGain f wild 0
    transmitTimeForNextPacket := 0
    rtProp := 200 }

/-- `current_time() - rtt_change_timestamp`, at the reading `now`. -/
def sinceChange (now : Int) (timestamp : Int64) : Int := (Int64.ofInt now - timestamp).toInt

/-- `on_ack_bbr_state_chk(bbr)`. -/
def onAckBbrStateChk (f : FloatArith) (wild : Int → ℚ) (b : Bbr) : Bbr :=
  let gain := bbrPacingGain f wild
  match b.currentlyExecutingMode with
  | .startup =>
      let third := b.rttsHappened.tmod 3 = 0
      let grown := (b.startupBwMostRecent - b.startupBwLeastRecent) / b.startupBwLeastRecent *
        100 > 25
      if (third ∧ b.startupBwLeastRecent ≠ 0 ∧ grown) ∨
          (third ∧ b.startupBwLeastRecent = 0) then
        { b with drainBegin := wrapInt b.rttsHappened, currentlyExecutingMode := .drain }
      else
        { b with
          pacingGain := gain 1
          cwnd := toLong (f.single
            (f.single (f.single b.rtProp * gain 1) * f.single b.bottleneckBandwidth)) }
  | .probeRtt =>
      if b.rttsHappened - b.probeRttBegin ≥ 4 then
        { b with dataInProbeBwMode := 0, tempCnterForProbeBw := 2,
                 currentlyExecutingMode := .probeBw }
      else
        { b with
          pacingGain := gain 5
          cwnd := toLong (f.single
            (f.single (b.rtProp * b.bottleneckBandwidth : Int) * gain 1)) }
  | .probeBw =>
      let b :=
        if b.dataInProbeBwMode ≥ (b.rtProp * b.bottleneckBandwidth).tdiv 1000 then
          { b with
            tempCnterForProbeBw :=
              (if b.tempCnterForProbeBw = 8 then 1 else b.tempCnterForProbeBw) + 1
            dataInProbeBwMode := 0 }
        else b
      { b with
        cwnd := toLong (f.single
          (f.single (b.bottleneckBandwidth * b.rtProp : Int) * gain 5))
        pacingGain := gain b.tempCnterForProbeBw }
  | .drain =>
      if b.rttsHappened - b.drainBegin ≥ 10 then
        { b with currentlyExecutingMode := .probeBw, dataInProbeBwMode := 0,
                 tempCnterForProbeBw := 2 }
      else
        { b with
          cwnd := toLong (f.single
            (f.single (f.single b.rtProp * gain 2) * f.single b.bottleneckBandwidth))
          pacingGain := gain 2 }

end NetLabs.Ctcp
