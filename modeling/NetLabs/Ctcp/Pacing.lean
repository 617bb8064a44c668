/-
NetLabs.Ctcp.Pacing — the divisor of the pacing, and the time it leads to.

After each segment sent, the time of the next one is computed by dividing by
`pacing_gain * bottleneck_bandwidth`. The guard before it tests
`maximum_bandwidth_captured` instead, and neither factor is tied to that: the
initialiser `3/4` of the gain table is the integer 0, which `PROBE_BW` comes
to in its second phase, and the bandwidth follows the maximum only at every
tenth sample, so that after a first sample below one byte per millisecond it
stays 0 while the maximum is not. `Sample.Paced` says of the state before, of
the length and of the RTT whether both factors are positive after the sample
(`pacingPositive_measure`). Ticks and everything else leave the factors and
the guard alone.

The pause is added to the clock in `float`, whose 24 digits are not enough for
a time in milliseconds: the clock is rounded before the sum is, and the time of
the next packet may lie a minute in the past. It does not where the reading is
not rounded down, or the pause is more than half of the distance between two
`float`s there (`keepsAhead_iff`).
-/
import NetLabs.Lib.Rounding
import NetLabs.Ctcp.Estimates
import NetLabs.Ctcp.BbrModes

namespace NetLabs.Ctcp

open NetLabs.Lib

variable {env : Env}

/-! ## The gain table -/

/-- The third entry of the gain table is 0, every other at least a quarter. -/
theorem gain_entry {f : FloatArith} (ieee : f.Ieee) (wild : Int → ℚ) {i : Int} (low : 0 ≤ i)
    (high : i ≤ 9) :
    i = 3 ∧ bbrPacingGain f wild i = 0 ∨ i ≠ 3 ∧ 1 / 4 ≤ bbrPacingGain f wild i := by
  have quarter : (1 / 4 : ℚ) = 1 / 2 ^ 2 := by norm_num
  have least : 1 / 4 ≤ gain289 f := by
    rw [quarter]
    exact ieee.le_double 2 (by decide) (by norm_num)
  have most : gain289 f ≤ 4 := ieee.double_le 4 (by decide) (by norm_num)
  have first : 1 / 4 ≤ f.single (gain289 f) := by
    rw [quarter] at least ⊢
    exact ieee.le_single 2 (by decide) least
  have second : 1 / 4 ≤ f.single (f.double (1 / gain289 f)) := by
    have positive : 0 < gain289 f := lt_of_lt_of_le (by norm_num) least
    have inverse : 1 / 4 ≤ 1 / gain289 f := one_div_le_one_div_of_le positive most
    rw [quarter] at inverse ⊢
    exact ieee.le_single 2 (by decide) (ieee.le_double 2 (by decide) inverse)
  obtain rfl | rfl | rfl | rfl | later : i = 0 ∨ i = 1 ∨ i = 2 ∨ i = 3 ∨ 4 ≤ i := by omega
  · exact .inr ⟨by decide, first⟩
  · exact .inr ⟨by decide, second⟩
  · exact .inr ⟨by decide, by norm_num [bbrPacingGain]⟩
  · exact .inl ⟨rfl, rfl⟩
  · have one : bbrPacingGain f wild i = 1 := by
      obtain rfl | rfl | rfl | rfl | rfl | rfl :
        i = 4 ∨ i = 5 ∨ i = 6 ∨ i = 7 ∨ i = 8 ∨ i = 9 := by omega
      all_goals rfl
    rw [one]
    exact .inr ⟨by omega, by norm_num⟩

/-! ## The two factors -/

/-- Where the guard lets the division happen, both factors are positive. -/
def PacingPositive (s : CtcpState) : Prop :=
  s.maximumBandwidthCaptured ≠ 0xffffffff → s.maximumBandwidthCaptured ≠ 0 →
    0 < s.bbr.pacingGain ∧ 0 < s.bbr.bottleneckBandwidth

/-- What the division depends on besides: the gain is 0 or one that does not
vanish, the index of the table is one of `PROBE_BW`, and the first sample comes
in `STARTUP`. -/
structure GainKept (s : CtcpState) : Prop where
  gain : s.bbr.pacingGain = 0 ∨ 1 / 4 ≤ s.bbr.pacingGain
  index : s.bbr.currentlyExecutingMode = .probeBw →
    2 ≤ s.bbr.tempCnterForProbeBw ∧ s.bbr.tempCnterForProbeBw ≤ 8
  counted : 0 ≤ s.bbr.rttsHappened
  first : s.bbr.rttsHappened = 0 → s.bbr.currentlyExecutingMode = .startup

/-! ## The condition -/

/-- A sample of `len` bytes, acknowledged after `rtt` milliseconds, after which
the division is safe. A first one leaves the guard closed or sets a positive
bandwidth unless its RTT is negative. A later one leaves the guard closed, or
finds a positive bandwidth or is a tenth one, and the gain stays from 0. -/
def SamplePaced (s : CtcpState) (len rtt : Int) (counted : Prop) [Decidable counted] : Prop :=
  if s.bbr.rttsHappened = 0 then 0 ≤ rtt ∨ len < 2 * -rtt
  else
    let samples := if counted then s.bbr.rttsHappened + 1 else s.bbr.rttsHappened
    let tenth := counted ∧ samples.tmod 10 = 0
    -- a new minimum of the RTT ends `PROBE_BW`
    let mode := if s.minimumRttCaptured ≠ -1 ∧ rtt ≤ s.minimumRttCaptured ∧
        s.bbr.currentlyExecutingMode = .probeBw then .startup else s.bbr.currentlyExecutingMode
    let rtProp := if s.minimumRttCaptured = -1 then rtt else s.bbr.rtProp
    let bandwidth := if tenth then
        max s.bbr.bottleneckBandwidth (max s.maximumBandwidthCaptured.toNat (len / rtt))
      else s.bbr.bottleneckBandwidth
    s.maximumBandwidthCaptured = 0xffffffff ∨
      s.maximumBandwidthCaptured = 0 ∧ ¬ (counted ∧ 0 < rtt ∧ rtt ≤ len) ∨
      (0 < s.bbr.bottleneckBandwidth ∨ tenth) ∧
        (s.bbr.IsOver samples mode → s.bbr.pacingGain ≠ 0) ∧
        -- the table has 0 at 3, to which the index comes, or at which it stays
        (mode = .probeBw → s.bbr.tempCnterForProbeBw ≠
          if s.bbr.dataInProbeBwMode ≥ (rtProp * bandwidth).tdiv 1000 then 2 else 3)

/-- An acknowledged segment after which the division is safe. -/
def Sample.Paced (s : CtcpState) : Sample → Prop
  | .acked b rtt =>
      SamplePaced s b.segment.len.toNat rtt (b.appLimited = 0 ∧ b.appLimitedHigh = 0)
  | _ => True

/-! ## The gain after a sample -/

/-- The index after a call in `PROBE_BW`. -/
def Bbr.cycled (b : Bbr) : Int :=
  if b.dataInProbeBwMode ≥ (b.rtProp * b.bottleneckBandwidth).tdiv 1000 then
    (if b.tempCnterForProbeBw = 8 then 1 else b.tempCnterForProbeBw) + 1
  else b.tempCnterForProbeBw

/-- `on_ack_bbr_state_chk` neither leaves a mode with the gain at 0 nor
comes to the entry `3/4`. -/
def Bbr.HasGain (b : Bbr) : Prop :=
  (b.Leaves → b.pacingGain ≠ 0) ∧ (b.currentlyExecutingMode = .probeBw → b.cycled ≠ 3)

/-- The index comes to 3 from 2, or stays there. -/
theorem cycled_eq_three_iff (b : Bbr) :
    b.cycled = 3 ↔ b.tempCnterForProbeBw =
      if b.dataInProbeBwMode ≥ (b.rtProp * b.bottleneckBandwidth).tdiv 1000 then 2 else 3 := by
  rw [Bbr.cycled]
  split_ifs <;> omega

/-- After a later sample that opens the guard the bandwidth is positive if it
was, or if the sample is a counted tenth one. -/
theorem nextBandwidth_pos_iff {s : CtcpState} {b : Buf} {rtt : Int}
    (later : s.bbr.rttsHappened ≠ 0) (set : s.nextMaximum env b rtt ≠ 0) :
    0 < s.nextBandwidth env b rtt ↔
      0 < s.bbr.bottleneckBandwidth ∨ s.counts b ∧ (s.nextRtts b).tmod 10 = 0 := by
  have some : 0 < (s.nextMaximum env b rtt).toNat := by
    have : (s.nextMaximum env b rtt).toNat ≠ 0 := fun zero => set (UInt32.toNat_inj.mp zero)
    omega
  rw [CtcpState.nextBandwidth, if_neg later]
  by_cases tenth : s.counts b ∧ (s.nextRtts b).tmod 10 = 0
  · refine iff_of_true ?_ (.inr tenth)
    split
    · omega
    · rename_i most
      have : ¬ s.bbr.bottleneckBandwidth < (s.nextMaximum env b rtt).toNat :=
        fun less => most ⟨tenth.1, tenth.2, less⟩
      omega
  · rw [if_neg fun h => tenth ⟨h.1, h.2.1⟩, or_iff_left tenth]

section OnAck

variable {f : FloatArith} (wild : Int → ℚ) {b : Bbr}

theorem onAck_probeBw_cycled (mode : b.currentlyExecutingMode = .probeBw) :
    (onAckBbrStateChk f wild b).pacingGain = bbrPacingGain f wild b.cycled ∧
    (onAckBbrStateChk f wild b).tempCnterForProbeBw = b.cycled := by
  simp only [onAckBbrStateChk, mode, Bbr.cycled]
  split <;> exact ⟨rfl, rfl⟩

/-- The index stays in the table. -/
theorem cycled_range (index : 2 ≤ b.tempCnterForProbeBw ∧ b.tempCnterForProbeBw ≤ 8) :
    2 ≤ b.cycled ∧ b.cycled ≤ 8 := by
  rw [Bbr.cycled]
  split_ifs <;> omega

/-- `on_ack_bbr_state_chk` keeps the index in its range. -/
theorem index_onAck
    (index : b.currentlyExecutingMode = .probeBw →
      2 ≤ b.tempCnterForProbeBw ∧ b.tempCnterForProbeBw ≤ 8)
    (after : (onAckBbrStateChk f wild b).currentlyExecutingMode = .probeBw) :
    2 ≤ (onAckBbrStateChk f wild b).tempCnterForProbeBw ∧
      (onAckBbrStateChk f wild b).tempCnterForProbeBw ≤ 8 := by
  cases mode : b.currentlyExecutingMode with
  | startup =>
    obtain ⟨_, startup | ⟨drain, _⟩⟩ := Bbr.onAck_startup f wild mode
    · rw [after] at startup
      contradiction
    · rw [after] at drain
      contradiction
  | drain =>
    obtain ⟨_, ⟨_, temp⟩ | ⟨drain, _⟩⟩ := Bbr.onAck_drain f wild mode
    · omega
    · rw [after] at drain
      contradiction
  | probeBw =>
    rw [(onAck_probeBw_cycled wild mode).2]
    exact cycled_range (index mode)
  | probeRtt =>
    obtain ⟨_, ⟨_, temp⟩ | ⟨probeRtt, _⟩⟩ := Bbr.onAck_probeRtt f wild mode
    · omega
    · rw [after] at probeRtt
      contradiction

/-- `on_ack_bbr_state_chk` sets a gain of the table, which is positive exactly where
the record has one. -/
theorem gain_onAck (ieee : f.Ieee) (gain : b.pacingGain = 0 ∨ 1 / 4 ≤ b.pacingGain)
    (index : b.currentlyExecutingMode = .probeBw →
      2 ≤ b.tempCnterForProbeBw ∧ b.tempCnterForProbeBw ≤ 8) :
    (onAckBbrStateChk f wild b).pacingGain = 0 ∧ ¬ b.HasGain ∨
      1 / 4 ≤ (onAckBbrStateChk f wild b).pacingGain ∧ b.HasGain := by
  by_cases leaves : b.Leaves
  · have notProbeBw : b.currentlyExecutingMode ≠ .probeBw := by
      intro mode
      rw [Bbr.Leaves, mode] at leaves
      exact leaves
    rw [(Bbr.onAck_leaves f wild leaves).2]
    rcases gain with zero | positive
    · exact .inl ⟨zero, fun has => has.1 leaves zero⟩
    · refine .inr ⟨positive, fun _ => ?_, fun mode => absurd mode notProbeBw⟩
      exact (lt_of_lt_of_le (by norm_num) positive).ne'
  · -- outside `PROBE_BW` the entry is one of the others
    have other : ∀ i : Int, 0 ≤ i → i ≤ 9 → i ≠ 3 → b.currentlyExecutingMode ≠ .probeBw →
        (onAckBbrStateChk f wild b).pacingGain = bbrPacingGain f wild i →
        1 / 4 ≤ (onAckBbrStateChk f wild b).pacingGain ∧ b.HasGain := by
      intro i low high entry mode set
      have bound := (gain_entry ieee wild low high).resolve_left fun h => entry h.1
      rw [set]
      exact ⟨bound.2, fun h => absurd h leaves, fun h => absurd h mode⟩
    cases mode : b.currentlyExecutingMode with
    | startup =>
      refine .inr (other 1 (by decide) (by decide) (by decide) (by simp [mode]) ?_)
      rw [Bbr.onAck_startup_stays f wild leaves mode]
    | drain =>
      refine .inr (other 2 (by decide) (by decide) (by decide) (by simp [mode]) ?_)
      rw [Bbr.onAck_drain_stays f wild leaves mode]
    | probeRtt =>
      refine .inr (other 5 (by decide) (by decide) (by decide) (by simp [mode]) ?_)
      rw [Bbr.onAck_probeRtt_stays f wild leaves mode]
    | probeBw =>
      obtain ⟨low, high⟩ := cycled_range (index mode)
      rw [(onAck_probeBw_cycled wild mode).1]
      rcases gain_entry ieee wild (i := b.cycled) (by omega) (by omega) with
        ⟨three, zero⟩ | ⟨other, positive⟩
      · exact .inl ⟨zero, fun has => has.2 mode three⟩
      · exact .inr ⟨positive, fun h => absurd h leaves, fun _ => other⟩

end OnAck

/-! ## Steps -/

theorem gainKept_init (ieee : env.float.Ieee) (block : Bbr) (config : CtcpConfig) :
    GainKept (ctcpInit env block config) where
  gain := .inr ((gain_entry ieee env.wildGain (i := 0) (by decide) (by decide)).resolve_left
    (fun h => absurd h.1 (by decide))).2
  index mode := by cases mode
  counted := le_rfl
  first _ := rfl

section Measure

variable {s : CtcpState} (ieee : env.float.Ieee) (kept : GainKept s) (b : Buf)

include kept

/-- The sample leaves the gain and the index to the call. -/
theorem GainKept.sampled (env : Env) (rtt : Int) :
    ((s.sampledBbr env b rtt).pacingGain = 0 ∨ 1 / 4 ≤ (s.sampledBbr env b rtt).pacingGain) ∧
    ((s.sampledBbr env b rtt).currentlyExecutingMode = .probeBw →
      2 ≤ (s.sampledBbr env b rtt).tempCnterForProbeBw ∧
        (s.sampledBbr env b rtt).tempCnterForProbeBw ≤ 8) := by
  refine ⟨kept.gain, fun mode => kept.index ?_⟩
  have sampled : s.nextMode rtt = .probeBw := mode
  rw [CtcpState.nextMode] at sampled
  split at sampled
  · contradiction
  · exact sampled

/-- After a sample one has been counted. -/
theorem GainKept.nextRtts_pos : 0 < s.nextRtts b := by
  have counted := kept.counted
  rw [CtcpState.nextRtts]
  split
  · omega
  · rename_i skipped
    have : s.bbr.rttsHappened ≠ 0 := fun none => skipped (.inl none)
    omega

/-- The gain after a sample is positive exactly if the record has one. -/
theorem GainKept.gain_pos_iff (ieee : env.float.Ieee) (rtt : Int) :
    0 < (onAckBbrStateChk env.float env.wildGain (s.sampledBbr env b rtt)).pacingGain ↔
      (s.sampledBbr env b rtt).HasGain := by
  obtain ⟨gain, index⟩ := kept.sampled b env rtt
  rcases gain_onAck env.wildGain ieee gain index with ⟨zero, vanishes⟩ | ⟨positive, has⟩
  · rw [zero]
    exact iff_of_false (lt_irrefl _) vanishes
  · exact iff_of_true (lt_of_lt_of_le (by norm_num) positive) has

include ieee

theorem GainKept.measure : GainKept (s.measure env b) := by
  obtain ⟨gain, index⟩ := kept.sampled b env (s.rtt env b)
  have some := kept.nextRtts_pos b
  have counted : (s.measure env b).bbr.rttsHappened = s.nextRtts b := by
    rw [CtcpState.measure_sampledBbr]
    exact Bbr.onAck_rttsHappened _ _ _
  refine ⟨?_, ?_, counted ▸ some.le, fun none => absurd (counted.symm.trans none) some.ne'⟩
  · rw [CtcpState.measure_sampledBbr]
    exact (gain_onAck _ ieee gain index).imp And.left And.left
  · rw [CtcpState.measure_sampledBbr]
    exact index_onAck _ index

/-- Whether the division is safe after an acknowledged segment, by the record
and the two fields the sample makes. -/
theorem pacingPositive_measure_iff :
    PacingPositive (s.measure env b) ↔
      (s.nextMaximum env b (s.rtt env b) ≠ 0xffffffff → s.nextMaximum env b (s.rtt env b) ≠ 0 →
        (s.sampledBbr env b (s.rtt env b)).HasGain ∧
          0 < s.nextBandwidth env b (s.rtt env b)) := by
  rw [CtcpState.measure_sampledBbr, PacingPositive]
  dsimp only
  rw [(Bbr.onAck_keeps env.float env.wildGain (s.sampledBbr env b (s.rtt env b))).2.1,
    kept.gain_pos_iff b ieee]
  exact Iff.rfl

/-- After the first one the gain is positive. -/
theorem pacingPositive_first (first : s.bbr.rttsHappened = 0) :
    PacingPositive (s.measure env b) ↔ Sample.Paced s (.acked b (s.rtt env b)) := by
  have mode : (s.sampledBbr env b (s.rtt env b)).currentlyExecutingMode = .startup := by
    simp [CtcpState.sampledBbr, CtcpState.nextMode, kept.first first]
  have one : (s.sampledBbr env b (s.rtt env b)).rttsHappened = 1 := by
    simp [CtcpState.sampledBbr, CtcpState.nextRtts, CtcpState.counts, first]
  have gain : (s.sampledBbr env b (s.rtt env b)).HasGain := by
    refine ⟨fun leaves => ?_, fun probeBw => ?_⟩
    · rw [Bbr.leaves_iff, mode, one] at leaves
      exact absurd leaves.1 (by decide)
    · rw [mode] at probeBw
      contradiction
  rw [pacingPositive_measure_iff ieee kept b, and_iff_right gain, Sample.Paced, SamplePaced,
    if_pos first, CtcpState.nextMaximum, if_pos (.inl first), CtcpState.nextBandwidth,
    if_pos first]
  exact first_positive_iff ieee b.segment.len _

/-- After a later one the bandwidth is positive if it was, or if the sample is
a counted tenth one. -/
theorem pacingPositive_later (later : s.bbr.rttsHappened ≠ 0) :
    PacingPositive (s.measure env b) ↔ Sample.Paced s (.acked b (s.rtt env b)) := by
  have counts := counts_later (b := b) later
  set sampled := s.sampledBbr env b (s.rtt env b) with sampled_eq
  have samples : sampled.rttsHappened = _ := nextRtts_later later
  have bandwidth : sampled.bottleneckBandwidth = _ :=
    (nextBandwidth_later ieee (s.rtt env b) later).trans
      (if_congr (and_congr_left' counts) rfl rfl)
  have mode : sampled.currentlyExecutingMode =
      if s.minimumRttCaptured ≠ -1 ∧ s.rtt env b ≤ s.minimumRttCaptured ∧
        s.bbr.currentlyExecutingMode = .probeBw then .startup
      else s.bbr.currentlyExecutingMode := rfl
  have gain : sampled.HasGain ↔
      (s.bbr.IsOver sampled.rttsHappened sampled.currentlyExecutingMode →
        s.bbr.pacingGain ≠ 0) ∧
      (sampled.currentlyExecutingMode = .probeBw → s.bbr.tempCnterForProbeBw ≠
        if s.bbr.dataInProbeBwMode ≥ (sampled.rtProp * sampled.bottleneckBandwidth).tdiv 1000
        then 2 else 3) := by
    rw [Bbr.HasGain, Bbr.leaves_iff, isOver_sampled, ne_eq sampled.cycled, cycled_eq_three_iff]
    exact Iff.rfl
  have paced : Sample.Paced s (.acked b (s.rtt env b)) ↔
      s.nextMaximum env b (s.rtt env b) = 0xffffffff ∨ s.nextMaximum env b (s.rtt env b) = 0 ∨
        (0 < s.bbr.bottleneckBandwidth ∨ s.counts b ∧ sampled.rttsHappened.tmod 10 = 0) ∧
          sampled.HasGain := by
    rw [nextMaximum_full_iff ieee _ later, nextMaximum_zero_iff ieee _ later, gain, counts,
      bandwidth, Sample.Paced, SamplePaced, if_neg later, ← samples]
    exact Iff.rfl
  rw [pacingPositive_measure_iff ieee kept b, paced]
  by_cases full : s.nextMaximum env b (s.rtt env b) = 0xffffffff
  · exact iff_of_true (fun unset => absurd full unset) (.inl full)
  by_cases zero : s.nextMaximum env b (s.rtt env b) = 0
  · exact iff_of_true (fun _ some => absurd zero some) (.inr (.inl zero))
  rw [nextBandwidth_pos_iff later zero, or_iff_right full, or_iff_right zero]
  exact ⟨fun safe => (safe full zero).symm, fun both _ _ => both.symm⟩

/-- After an acknowledged segment the division is safe exactly if the segment
is paced. -/
theorem pacingPositive_measure :
    PacingPositive (s.measure env b) ↔ Sample.Paced s (.acked b (s.rtt env b)) := by
  by_cases first : s.bbr.rttsHappened = 0
  · exact pacingPositive_first ieee kept b first
  · exact pacingPositive_later ieee kept b first

end Measure

/-- Ticks leave the factors and the guard alone. -/
theorem Ticked.pacing {s t : CtcpState} (h : Ticked s t) :
    (GainKept s → GainKept t) ∧ (PacingPositive s → PacingPositive t) := by
  have gain : t.bbr.pacingGain = s.bbr.pacingGain := by rw [h.bbr]
  have index : t.bbr.tempCnterForProbeBw = s.bbr.tempCnterForProbeBw := by rw [h.bbr]
  have bandwidth : t.bbr.bottleneckBandwidth = s.bbr.bottleneckBandwidth := by rw [h.bbr]
  have rtts : t.bbr.rttsHappened = s.bbr.rttsHappened := by rw [h.bbr]
  refine ⟨fun kept => ⟨gain ▸ kept.gain, fun mode => ?_, rtts ▸ kept.counted, fun none => ?_⟩,
    fun positive => ?_⟩
  · rw [index]
    exact kept.index (h.probeBw mode)
  · exact h.startup (kept.first (rtts.symm.trans none))
  · rw [PacingPositive, h.maximum, gain, bandwidth]
    exact positive

/-- What measures nothing leaves the factors alone. -/
theorem Idle.pacing {s t : CtcpState} (h : Idle s t) :
    (GainKept s → GainKept t) ∧ (PacingPositive s → PacingPositive t) := by
  refine ⟨fun kept => ?_, fun positive => ?_⟩
  · obtain ⟨gain, index, counted, first⟩ := kept
    constructor <;> rw [h.bbr] <;> assumption
  · rw [PacingPositive, h.maximum, h.bbr]
    exact positive

/-! ## The time of the next packet -/

/-- `len / (pacing_gain * bottleneck_bandwidth)`. -/
def CtcpState.pause (env : Env) (s : CtcpState) (len : UInt16) : ℚ :=
  env.float.single (env.float.single len.toNat /
    env.float.single (s.bbr.pacingGain * env.float.single s.bbr.bottleneckBandwidth))

/-- If the reading becomes smaller as a `float`, the pause is more than half of
the distance between two `float`s there, or half of it behind an odd one. -/
def CtcpState.KeepsAhead (env : Env) (s : CtcpState) (len : UInt16) (now : Int) : Prop :=
  RoundsDown 24 now → spacing 24 now < 2 * s.pause env len ∨
    2 * s.pause env len = spacing 24 now ∧ now / spacing 24 now % 2 = 1

section Time

variable {s : CtcpState} (ieee : env.float.Ieee) (gain : 1 / 4 ≤ s.bbr.pacingGain)
  (bandwidth : 0 < s.bbr.bottleneckBandwidth)

include ieee gain bandwidth

/-- With both factors positive the divisor is at least a quarter. -/
theorem quarter_le_rate :
    1 / 4 ≤ env.float.single (s.bbr.pacingGain * env.float.single s.bbr.bottleneckBandwidth) := by
  have one : (1 : ℚ) ≤ env.float.single s.bbr.bottleneckBandwidth := by
    have whole := ieee.single_natCast (n := 1) (by decide)
    rw [Nat.cast_one] at whole
    exact whole ▸ ieee.single_mono (by exact_mod_cast bandwidth)
  have product : (1 : ℚ) / 2 ^ 2 ≤
      s.bbr.pacingGain * env.float.single s.bbr.bottleneckBandwidth := by
    nlinarith
  exact (by norm_num : (1 / 4 : ℚ) = 1 / 2 ^ 2) ▸ ieee.le_single 2 (by decide) product

/-- The pause is at most four milliseconds a byte. -/
theorem pause_mem (len : UInt16) : 0 ≤ s.pause env len ∧ s.pause env len ≤ 4 * len.toNat := by
  have quarter := quarter_le_rate ieee gain bandwidth
  have short := len.toNat_lt
  have zero := ieee.single_natCast (n := 0) (by decide)
  have most := ieee.single_natCast (n := 4 * len.toNat) (by omega)
  push_cast at zero most
  rw [CtcpState.pause, ieee.single_natCast (by omega)]
  set rate := env.float.single (s.bbr.pacingGain * env.float.single s.bbr.bottleneckBandwidth)
  have positive : 0 < rate := lt_of_lt_of_le (by norm_num) quarter
  have low : (0 : ℚ) ≤ len.toNat / rate := div_nonneg (Nat.cast_nonneg _) positive.le
  have high : (len.toNat : ℚ) / rate ≤ 4 * len.toNat := by
    have nonneg : (0 : ℚ) ≤ 4 * len.toNat := by positivity
    rw [div_le_iff₀ positive]
    calc (len.toNat : ℚ) = 4 * len.toNat * (1 / 4) := by ring
      _ ≤ 4 * len.toNat * rate := mul_le_mul_of_nonneg_left quarter nonneg
  exact ⟨zero ▸ ieee.single_mono low, most ▸ ieee.single_mono high⟩

/-- The time computed is finite, and it is not in the past exactly if the clock
does not become smaller as a `float`, or the sum is larger than that. -/
theorem nextTransmitTime_mem
    (set : s.maximumBandwidthCaptured ≠ 0xffffffff ∧ s.maximumBandwidthCaptured ≠ 0)
    (len : UInt16) {now : Int} (nonneg : 0 ≤ now) (few : now < 4611686018427387904) :
    (0 ≤ s.nextTransmitTime env len now ∧
      s.nextTransmitTime env len now ≤
        env.float.single (env.float.single now + 4 * len.toNat)) ∧
    (now ≤ s.nextTransmitTime env len now ↔ now ≤ env.float.single now ∨
      env.float.single now < env.float.single (env.float.single now + s.pause env len)) := by
  obtain ⟨pauseLow, pauseHigh⟩ := pause_mem ieee gain bandwidth len
  have quarter := quarter_le_rate ieee gain bandwidth
  have short : (len.toNat : ℚ) ≤ 65535 := by exact_mod_cast Nat.le_of_lt_succ len.toNat_lt
  have zero := ieee.single_natCast (n := 0) (by decide)
  rw [Nat.cast_zero] at zero
  set clock := env.float.single now with clock_eq
  set sum := env.float.single (clock + s.pause env len) with sum_eq
  have clockLow : 0 ≤ clock := zero ▸ ieee.single_mono (Int.cast_nonneg nonneg)
  have ahead : clock ≤ sum := by
    rw [clock_eq, ← ieee.single_idem now, ← clock_eq]
    exact ieee.single_mono (by linarith)
  have sumHigh : sum < 9223372036854775808 := by
    have largest := ieee.single_large 3 61 (by decide) (by decide)
    have bound : clock + s.pause env len ≤ (3 : Int) * 2 ^ 61 := by
      have power := ieee.single_large 1 62 (by decide) (by decide)
      have reading : (now : ℚ) ≤ (1 : Int) * 2 ^ 62 := by
        push_cast
        exact_mod_cast (by omega : now ≤ 1 * 2 ^ 62)
      have rounded := ieee.single_mono reading
      rw [power, ← clock_eq] at rounded
      push_cast at rounded ⊢
      linarith
    have rounded := ieee.single_mono bound
    rw [largest] at rounded
    exact rounded.trans_lt (by norm_num)
  have time : s.nextTransmitTime env len now = ⌊sum⌋ := by
    have divided : s.nextTransmitTime env len now = toLong sum := by
      rw [CtcpState.nextTransmitTime, if_pos set, if_neg (lt_of_lt_of_le (by norm_num) quarter).ne']
      rfl
    rw [divided, toLong_of_nonneg (clockLow.trans ahead) sumHigh]
  rw [time]
  refine ⟨⟨Int.floor_nonneg.mpr (clockLow.trans ahead), ?_⟩, ?_⟩
  · exact (Int.floor_le sum).trans (ieee.single_mono (by linarith))
  · rw [Int.le_floor]
    constructor
    · intro future
      exact (le_or_gt (now : ℚ) clock).imp_right fun behind => behind.trans_le future
    · rintro (upward | moved)
      · exact upward.trans ahead
      · -- no number of the format lies between the clock and its rounding
        by_contra past
        have between := ieee.single_mono (not_le.mp past).le
        rw [sum_eq, ieee.single_idem, ← sum_eq, ← clock_eq] at between
        exact absurd moved (not_lt.mpr between)

theorem keepsAhead_iff (binary : env.float.single = nearest 24) (len : UInt16) {now : Int}
    (nonneg : 0 ≤ now) :
    (now ≤ env.float.single now ∨
      env.float.single now < env.float.single (env.float.single now + s.pause env len)) ↔
    s.KeepsAhead env len now := by
  have pause := (pause_mem ieee gain bandwidth len).1
  rw [binary, CtcpState.KeepsAhead, ← not_lt, nearest_lt_iff (by decide) nonneg,
    or_iff_not_imp_left, not_not]
  exact imp_congr_right fun down => lt_nearest_add_iff (by decide) down pause

end Time

/-- The pause of 21 bytes is lost in the rounding, and the time computed is 20
seconds in the past. -/
example :
    let env : Env := { Env.plain .little with float := .binary }
    let s := { CtcpState.fresh env with
      maximumBandwidthCaptured := 1440
      bbr := { Bbr.cleared with pacingGain := 1, bottleneckBandwidth := 1440 } }
    s.nextTransmitTime env 21 1699999927840 = 1699999907840 := by
  decide +kernel

/-! ## Runs -/

/-- **Pacing divides by a positive number.** In every interleaving of
acknowledged segments, ticks and everything else whose acknowledged segments
are paced, both factors of the divisor are positive wherever the guard lets
the division happen. The time computed is then finite, and with the `float` of
24 digits it is not in the past exactly if the sum keeps ahead of the clock.
The next acknowledged segment keeps the factors positive if and only if it is
paced, too. -/
theorem pacing_positive {block : Bbr} {config : CtcpConfig} {samples : List Sample} {s : CtcpState}
    (ieee : env.float.Ieee)
    (h : Run (Guarded (SampleStep env) Sample.Paced) (ctcpInit env block config) samples s) :
    (s.maximumBandwidthCaptured ≠ 0xffffffff → s.maximumBandwidthCaptured ≠ 0 →
      (0 < s.bbr.pacingGain ∧ 0 < s.bbr.bottleneckBandwidth) ∧
      ∀ (len : UInt16) (now : Int), 0 ≤ now → now < 4611686018427387904 →
        (0 ≤ s.nextTransmitTime env len now ∧
          s.nextTransmitTime env len now ≤
            env.float.single (env.float.single now + 4 * len.toNat)) ∧
        (env.float.single = nearest 24 →
          (now ≤ s.nextTransmitTime env len now ↔ s.KeepsAhead env len now))) ∧
    ∀ b, PacingPositive (s.measure env b) ↔ Sample.Paced s (.acked b (s.rtt env b)) := by
  have inv : GainKept s ∧ PacingPositive s := by
    refine Run.invariant (fun s => GainKept s ∧ PacingPositive s)
      ⟨gainKept_init ieee block config, fun unset => absurd rfl unset⟩
      (fun {t e u} ht hstep => ?_) h
    obtain ⟨kept, positive⟩ := ht
    obtain ⟨hstep, paced⟩ := hstep
    cases hstep with
    | acked b => exact ⟨kept.measure ieee b, (pacingPositive_measure ieee kept b).mpr paced⟩
    | tick =>
      have pacing := (ticked_timerBbr env t).pacing
      exact ⟨pacing.1 kept, pacing.2 positive⟩
    | idle hidle => exact ⟨hidle.pacing.1 kept, hidle.pacing.2 positive⟩
  obtain ⟨kept, positive⟩ := inv
  refine ⟨fun unset zero => ⟨positive unset zero, fun len now nonneg few => ?_⟩, fun b =>
    pacingPositive_measure ieee kept b⟩
  obtain ⟨gain, bandwidth⟩ := positive unset zero
  have quarter := kept.gain.resolve_left gain.ne'
  obtain ⟨bounds, future⟩ :=
    nextTransmitTime_mem ieee quarter bandwidth ⟨unset, zero⟩ len nonneg few
  exact ⟨bounds, fun binary =>
    future.trans (keepsAhead_iff ieee quarter bandwidth binary len nonneg)⟩

/-- A segment of 21 bytes is acknowledged after ten milliseconds. -/
theorem pacing_positive_first :
    let env : Env :=
      { Env.plain .little with float := .binary, clock := fun k => 10000 + k }
    let b : Buf := { (CtcpState.fresh env).makeBuf env [97] 16 with sentAt := 9990, sent := 1 }
    let s := (CtcpState.fresh env).measure env b
    (s.maximumBandwidthCaptured ≠ 0xffffffff → s.maximumBandwidthCaptured ≠ 0 →
      (0 < s.bbr.pacingGain ∧ 0 < s.bbr.bottleneckBandwidth) ∧
      ∀ (len : UInt16) (now : Int), 0 ≤ now → now < 4611686018427387904 →
        (0 ≤ s.nextTransmitTime env len now ∧
          s.nextTransmitTime env len now ≤
            env.float.single (env.float.single now + 4 * len.toNat)) ∧
        (now ≤ s.nextTransmitTime env len now ↔ s.KeepsAhead env len now)) ∧
    ∀ b, PacingPositive (s.measure env b) ↔ Sample.Paced s (.acked b (s.rtt env b)) := by
  intro env b s
  have rtt : (CtcpState.fresh env).rtt env b = 10 := by decide
  have paced : Sample.Paced (.fresh env) (.acked b 10) := by
    have first : (CtcpState.fresh env).bbr.rttsHappened = 0 := rfl
    rw [Sample.Paced, SamplePaced, if_pos first]
    exact .inl (by decide)
  have ack : SampleStep env (.fresh env) (.acked b 10) s := rtt ▸ .acked (.fresh env) b
  obtain ⟨positive, next⟩ := pacing_positive FloatArith.ieee_binary (.single ⟨ack, paced⟩)
  refine ⟨fun unset zero => ?_, next⟩
  obtain ⟨factors, time⟩ := positive unset zero
  refine ⟨factors, fun len now nonneg few => ?_⟩
  exact (time len now nonneg few).imp_right fun future => future rfl

/-- A slow first sample and a faster second one open the guard with the
bandwidth still at 0. -/
theorem pacing_divides_by_zero :
    let env : Env :=
      { Env.plain .little with float := .binary, clock := fun k => 10000 + k }
    let b : Buf := { (CtcpState.fresh env).makeBuf env [97] 16 with sentAt := 8000, sent := 1 }
    let c : Buf := { (CtcpState.fresh env).makeBuf env [97] 16 with sentAt := 9991, sent := 1 }
    let s := ((CtcpState.fresh env).measure env b).measure env c
    Run (SampleStep env) (.fresh env) [.acked b 2000, .acked c 10] s ∧
      s.maximumBandwidthCaptured = 2 ∧ s.bbr.bottleneckBandwidth = 0 ∧ ¬ PacingPositive s := by
  intro env b c s
  have opened : s.maximumBandwidthCaptured = 2 := by decide +kernel
  have zero : s.bbr.bottleneckBandwidth = 0 := by decide +kernel
  have slow : (CtcpState.fresh env).rtt env b = 2000 := by decide
  have fast : ((CtcpState.fresh env).measure env b).rtt env c = 10 := by decide
  have first : SampleStep env (.fresh env) (.acked b 2000) ((CtcpState.fresh env).measure env b) :=
    slow ▸ .acked (.fresh env) b
  have second : SampleStep env ((CtcpState.fresh env).measure env b) (.acked c 10) s :=
    fast ▸ .acked _ c
  refine ⟨.snoc (.single first) second, opened, zero, fun positive => ?_⟩
  have bandwidth := (positive (by rw [opened]; decide) (by rw [opened]; decide)).2
  rw [zero] at bandwidth
  exact absurd bandwidth (by decide)

end NetLabs.Ctcp
