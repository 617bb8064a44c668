/-
NetLabs.Ctcp.Estimates — a sample, by the length and the RTT.

`measure` computes the bandwidth of an acknowledged segment in `float` and
truncates it. Whatever the rounding is, what is left for an RTT that is not
negative is the integer quotient of the length and the RTT
(`toLong_bandwidthSample`). So `maximum_bandwidth_captured` and
`bottleneck_bandwidth` after a sample are known from the state before it, the
length and the RTT alone (`nextMaximum_counted`, `nextBandwidth_later`), and so
is whether `on_ack_bbr_state_chk` leaves its mode (`Bbr.IsOver`).
-/
import Mathlib.Data.Nat.Cast.Order.Field
import NetLabs.Ctcp.Samples

namespace NetLabs.Ctcp

open NetLabs.Lib

variable {env : Env}

/-! ## The end of a mode -/

/-- After this many samples `on_ack_bbr_state_chk` leaves this mode. -/
def Bbr.IsOver (b : Bbr) (samples : Int) : BbrMode → Prop
  | .startup => samples.tmod 3 = 0 ∧ b.EndsStartup
  | .drain => b.drainBegin + 10 ≤ samples
  | .probeBw => False
  | .probeRtt => b.probeRttBegin + 4 ≤ samples

instance (b : Bbr) (samples : Int) : DecidablePred (b.IsOver samples)
  | .startup => inferInstanceAs (Decidable (samples.tmod 3 = 0 ∧ b.EndsStartup))
  | .drain => inferInstanceAs (Decidable (b.drainBegin + 10 ≤ samples))
  | .probeBw => inferInstanceAs (Decidable False)
  | .probeRtt => inferInstanceAs (Decidable (b.probeRttBegin + 4 ≤ samples))

theorem Bbr.leaves_iff (b : Bbr) :
    b.Leaves ↔ b.IsOver b.rttsHappened b.currentlyExecutingMode := by
  rw [Bbr.Leaves]
  cases b.currentlyExecutingMode with
  | startup | probeBw => exact Iff.rfl
  | drain | probeRtt =>
    simp only [Bbr.IsOver]
    omega

/-- A sample does not change what the end of a mode is told by. -/
theorem isOver_sampled (env : Env) (s : CtcpState) (b : Buf) (rtt samples : Int) (mode : BbrMode) :
    (s.sampledBbr env b rtt).IsOver samples mode ↔ s.bbr.IsOver samples mode := by
  cases mode <;> rfl

/-! ## The bandwidth of a segment -/

section

variable (ieee : env.float.Ieee) (len : UInt16)

include ieee

/-- A quotient of this size is not rounded up to an integer. -/
theorem single_quotient_lt {d : Nat} (positive : 0 < d) (few : d < 2 ^ 24) :
    env.float.single (len.toNat / d) < (len.toNat / d : Nat) + 1 := by
  set k := len.toNat / d
  have short := len.toNat_lt
  have below : len.toNat + 1 ≤ (k + 1) * d := Nat.lt_mul_of_div_lt (Nat.lt_succ_self k) positive
  have above : k * d ≤ len.toNat := Nat.div_mul_le_self _ _
  -- the last number before the integer with as many binary places as `d` has digits
  obtain ⟨j, places, small, large⟩ : ∃ j ≤ 24, d < 2 ^ j ∧ 2 ^ j ≤ 2 * d := by
    refine ⟨d.log2 + 1, (Nat.log2_lt positive.ne').mpr few, Nat.lt_log2_self, ?_⟩
    have := Nat.log2_self_le positive.ne'
    rw [Nat.pow_succ]
    omega
  have digits : (k + 1) * 2 ^ j ≤ 2 ^ 24 := by
    rcases Nat.eq_zero_or_pos k with zero | some
    · rw [zero, zero_add, one_mul]
      exact Nat.pow_le_pow_right (by decide) places
    · nlinarith
  have power : 0 < 2 ^ j := Nat.two_pow_pos j
  have some : 0 < (k + 1) * 2 ^ j := Nat.mul_pos (Nat.succ_pos k) power
  have last := ieee.single_exact (((k + 1) * 2 ^ j - 1 : Nat) : Int) j (by omega) (by omega)
  rw [Int.cast_natCast, Nat.cast_sub some] at last
  push_cast at last
  have positive' : (0 : ℚ) < d := by exact_mod_cast positive
  have power' : (0 : ℚ) < 2 ^ j := by positivity
  have reached : (len.toNat : ℚ) / d ≤ ((k + 1) * 2 ^ j - 1) / 2 ^ j := by
    have below' : (len.toNat : ℚ) + 1 ≤ (k + 1) * d := by exact_mod_cast below
    have small' : (d : ℚ) ≤ 2 ^ j := by exact_mod_cast small.le
    rw [div_le_div_iff₀ positive' power']
    nlinarith
  have rounded := ieee.single_mono reached
  rw [last] at rounded
  refine rounded.trans_lt ?_
  rw [div_lt_iff₀ power']
  linarith

/-- The sample lies between the quotient and the integer after it. -/
theorem bandwidthSample_mem (d : Nat) :
    ((len.toNat / d : Nat) : ℚ) ≤ CtcpState.bandwidthSample env len d ∧
      CtcpState.bandwidthSample env len d < (len.toNat / d : Nat) + 1 := by
  have short := len.toNat_lt
  have quotient := Nat.div_le_self len.toNat d
  rw [CtcpState.bandwidthSample, ieee.single_natCast (by omega), Int.cast_natCast]
  rcases Nat.eq_zero_or_pos d with zero | positive
  · subst zero
    norm_num
  rw [if_neg (by exact_mod_cast positive.ne')]
  by_cases few : d < 2 ^ 24
  · rw [ieee.single_natCast few]
    refine ⟨?_, single_quotient_lt ieee len positive few⟩
    rw [← ieee.single_natCast (n := len.toNat / d) (by omega)]
    exact ieee.single_mono Nat.cast_div_le
  · -- an RTT of more than 24 bits stays above every length
    have long := ieee.le_single_natCast (not_lt.mp few)
    have none : len.toNat / d = 0 := Nat.div_eq_of_lt (by omega)
    have positive' : (0 : ℚ) < env.float.single d := (by norm_num : (0 : ℚ) < 2 ^ 24).trans_le long
    have low : (0 : ℚ) ≤ len.toNat / env.float.single d :=
      div_nonneg (Nat.cast_nonneg _) positive'.le
    have high : (len.toNat : ℚ) / env.float.single d ≤ ((len.toNat : Int) : ℚ) / 2 ^ 24 :=
      div_le_div_of_nonneg_left (Nat.cast_nonneg _) (by norm_num) long
    have rounded := ieee.single_mono low
    have rounded' := ieee.single_mono high
    have zero := ieee.single_natCast (n := 0) (by decide)
    have last := ieee.single_exact len.toNat 24 (by omega) (by decide)
    rw [last] at rounded'
    rw [Nat.cast_zero] at zero
    rw [zero] at rounded
    rw [none, Nat.cast_zero, zero_add]
    refine ⟨rounded, rounded'.trans_lt ?_⟩
    rw [div_lt_one (by norm_num)]
    exact_mod_cast (by omega : len.toNat < 2 ^ 24)

/-- For an RTT that is not negative the truncated sample is the quotient. -/
theorem toLong_bandwidthSample {rtt : Int} (nonneg : 0 ≤ rtt) :
    toLong (CtcpState.bandwidthSample env len rtt) = len.toNat / rtt := by
  obtain ⟨d, rfl⟩ := Int.eq_ofNat_of_zero_le nonneg
  obtain ⟨low, high⟩ := bandwidthSample_mem ieee len d
  have short := len.toNat_lt
  have quotient := Nat.div_le_self len.toNat d
  have few : ((len.toNat / d : Nat) : ℚ) + 1 ≤ 65536 := by exact_mod_cast (by omega)
  rw [toLong_of_nonneg ((Nat.cast_nonneg _).trans low) (high.trans_le (few.trans (by norm_num)))]
  exact Int.floor_eq_iff.mpr ⟨by exact_mod_cast low, by exact_mod_cast high⟩

/-- With a negative RTT the sample is not positive. -/
theorem bandwidthSample_nonpos {rtt : Int} (negative : rtt < 0) :
    CtcpState.bandwidthSample env len rtt ≤ 0 := by
  have zero := ieee.single_natCast (n := 0) (by decide)
  rw [Nat.cast_zero] at zero
  have divisor := ieee.single_mono (Int.cast_nonpos.mpr negative.le : (rtt : ℚ) ≤ 0)
  have dividend := ieee.single_mono (Nat.cast_nonneg len.toNat : (0 : ℚ) ≤ len.toNat)
  rw [zero] at divisor dividend
  have rounded := ieee.single_mono (div_nonpos_of_nonneg_of_nonpos dividend divisor)
  rw [CtcpState.bandwidthSample, if_neg negative.ne]
  rwa [zero] at rounded

/-- With a negative RTT the sample is above -2 exactly if the length is less than
twice its magnitude. -/
theorem bandwidthSample_negative {d : Nat} (positive : 0 < d) :
    (len.toNat < 2 * d → -2 < CtcpState.bandwidthSample env len (-d)) ∧
      (2 * d ≤ len.toNat → -65535 ≤ CtcpState.bandwidthSample env len (-d) ∧
        CtcpState.bandwidthSample env len (-d) ≤ -2) := by
  have short := len.toNat_lt
  have positive' : (0 : ℚ) < d := by exact_mod_cast positive
  rw [CtcpState.bandwidthSample, if_neg (by omega), ieee.single_natCast (by omega), Int.cast_neg,
    Int.cast_natCast]
  constructor
  · intro less
    have last := ieee.single_exact (-131071) 16 (by decide) (by decide)
    have divisor : len.toNat * 65536 ≤ 131071 * -env.float.single (-d) := by
      by_cases few : d < 2 ^ 24
      · have exact : env.float.single (-d) = -d := by
          simpa using ieee.single_exact (-d) 0 (by omega) (by decide)
        rw [exact, neg_neg]
        exact_mod_cast (by omega : len.toNat * 65536 ≤ 131071 * d)
      · have power := ieee.single_large (-1) 24 (by decide) (by decide)
        have bound : (-d : ℚ) ≤ (-1 : Int) * 2 ^ 24 := by
          have long : (2 : ℚ) ^ 24 ≤ d := by exact_mod_cast not_lt.mp few
          push_cast
          linarith
        have rounded := ieee.single_mono bound
        have few' : (len.toNat : ℚ) ≤ 65535 := by exact_mod_cast (by omega)
        rw [power] at rounded
        push_cast at rounded
        linarith
    have negative : env.float.single (-d) < 0 := by
      have bound := ieee.single_mono (neg_le_neg (Nat.one_le_cast.mpr positive : (1 : ℚ) ≤ d))
      have one := ieee.single_exact (-1) 0 (by decide) (by decide)
      norm_num at one
      linarith
    have reached : ((-131071 : Int) : ℚ) / 2 ^ 16 ≤ len.toNat / env.float.single (-d) := by
      rw [le_div_iff_of_neg negative]
      push_cast
      linarith
    have rounded := ieee.single_mono reached
    rw [last] at rounded
    exact (by norm_num : (-2 : ℚ) < (-131071 : Int) / 2 ^ 16).trans_le rounded
  · intro more
    have exact : env.float.single (-d) = -d := by
      simpa using ieee.single_exact (-d) 0 (by omega) (by decide)
    have low : ((-65535 : Int) : ℚ) / 2 ^ 0 ≤ len.toNat / -d := by
      have one : (1 : ℚ) ≤ d := Nat.one_le_cast.mpr positive
      have few' : (len.toNat : ℚ) ≤ 65535 := by exact_mod_cast (by omega)
      rw [le_div_iff_of_neg (neg_neg_of_pos positive')]
      push_cast
      linarith
    have high : (len.toNat : ℚ) / -d ≤ ((-2 : Int) : ℚ) / 2 ^ 0 := by
      have more' : (2 : ℚ) * d ≤ len.toNat := by exact_mod_cast more
      rw [div_le_iff_of_neg (neg_neg_of_pos positive')]
      push_cast
      linarith
    have rounded := ieee.single_mono low
    have rounded' := ieee.single_mono high
    rw [ieee.single_exact (-65535) 0 (by decide) (by decide)] at rounded
    rw [ieee.single_exact (-2) 0 (by decide) (by decide)] at rounded'
    rw [exact]
    norm_num at rounded rounded'
    exact ⟨rounded, rounded'⟩

/-- The first sample leaves the guard of the pacing closed, or sets a positive
bandwidth, exactly if its RTT is not negative, or is above half the length. -/
theorem first_positive_iff (rtt : Int) :
    let k := toLong (CtcpState.bandwidthSample env len rtt)
    (UInt32.ofInt k ≠ 0xffffffff → UInt32.ofInt k ≠ 0 → 0 < k) ↔
      0 ≤ rtt ∨ len.toNat < 2 * -rtt := by
  intro k
  by_cases nonneg : 0 ≤ rtt
  · have whole : k = len.toNat / rtt := toLong_bandwidthSample ieee len nonneg
    have low : 0 ≤ k := whole ▸ Int.ediv_nonneg (Int.natCast_nonneg _) nonneg
    refine iff_of_true (fun _ some => ?_) (.inl nonneg)
    rcases low.eq_or_lt with zero | positive
    · rw [← zero] at some
      exact absurd rfl some
    · exact positive
  obtain ⟨d, rfl⟩ : ∃ d : Nat, rtt = -d := ⟨(-rtt).toNat, by omega⟩
  have positive : 0 < d := by omega
  obtain ⟨near, far⟩ := bandwidthSample_negative ieee len positive
  have nonpos := bandwidthSample_nonpos ieee len (show (-d : Int) < 0 by omega)
  set x := -CtcpState.bandwidthSample env len (-d) with opposite
  have truncated (few : x < 9223372036854775808) : k = -⌊x⌋ := by
    rw [← toLong_neg (by linarith) few, opposite, neg_neg]
  by_cases less : len.toNat < 2 * d
  · have few := near less
    have low : 0 ≤ ⌊x⌋ := Int.floor_nonneg.mpr (by linarith)
    have high : ⌊x⌋ < 2 := Int.floor_lt.mpr (by push_cast; linarith)
    have value := truncated (by linarith)
    refine iff_of_true (fun unset some => ?_) (.inr (by omega))
    obtain zero | one : k = 0 ∨ k = -1 := by omega
    · rw [zero] at some
      exact absurd rfl some
    · rw [one] at unset
      exact absurd rfl unset
  · obtain ⟨least, most⟩ := far (not_lt.mp less)
    have low : 2 ≤ ⌊x⌋ := Int.le_floor.mpr (by push_cast; linarith)
    have high : ⌊x⌋ < 65536 := Int.floor_lt.mpr (by push_cast; linarith)
    have value := truncated (by linarith)
    have word := toNat_ofInt32 k
    have full : ((0xffffffff : UInt32).toNat : Int) = 4294967295 := rfl
    have none : ((0 : UInt32).toNat : Int) = 0 := rfl
    refine iff_of_false (fun safe => ?_) (by omega)
    have above : 0 < k := by
      refine safe (fun same => ?_) fun same => ?_
      · rw [same, full] at word
        omega
      · rw [same, none] at word
        omega
    omega

end

/-! ## The two fields after a later sample -/

/-- The quotient of a length fits 16 bits, and is positive where the RTT is and
does not exceed the length. -/
theorem len_ediv_mem (len : UInt16) (rtt : Int) :
    (len.toNat : Int) / rtt ≤ 65535 ∧
      (0 < (len.toNat : Int) / rtt ↔ 0 < rtt ∧ rtt ≤ len.toNat) := by
  have short := len.toNat_lt
  rcases lt_trichotomy rtt 0 with negative | zero | positive
  · obtain ⟨d, rfl⟩ : ∃ d : Nat, rtt = -d := ⟨(-rtt).toNat, by omega⟩
    have nonneg : 0 ≤ (len.toNat : Int) / d :=
      Int.ediv_nonneg (Int.natCast_nonneg _) (Int.natCast_nonneg _)
    rw [Int.ediv_neg]
    omega
  · rw [zero, Int.ediv_zero]
    omega
  · have self := Int.ediv_le_self rtt (Int.natCast_nonneg len.toNat)
    have reached : 1 ≤ (len.toNat : Int) / rtt ↔ 1 * rtt ≤ len.toNat :=
      Int.le_ediv_iff_mul_le positive
    omega

/-- After the first sample one counts unless its segment was limited by the
application. -/
theorem counts_later {s : CtcpState} {b : Buf} (later : s.bbr.rttsHappened ≠ 0) :
    s.counts b ↔ b.appLimited = 0 ∧ b.appLimitedHigh = 0 := by
  rw [CtcpState.counts, or_iff_right later]

theorem nextRtts_later {s : CtcpState} {b : Buf} (later : s.bbr.rttsHappened ≠ 0) :
    s.nextRtts b = if b.appLimited = 0 ∧ b.appLimitedHigh = 0 then s.bbr.rttsHappened + 1
      else s.bbr.rttsHappened :=
  if_congr (counts_later later) rfl rfl

section

variable (ieee : env.float.Ieee) {s : CtcpState} {b : Buf} (rtt : Int)
  (later : s.bbr.rttsHappened ≠ 0)

include ieee later

/-- A sample that counts raises the maximum to its bandwidth. -/
theorem nextMaximum_counted (counts : s.counts b) :
    ((s.nextMaximum env b rtt).toNat : Int) =
      max (s.maximumBandwidthCaptured.toNat : Int) (b.segment.len.toNat / rtt) := by
  set bw := CtcpState.bandwidthSample env b.segment.len rtt with sample
  have raises : s.nextMaximum env b rtt =
      if env.float.single s.maximumBandwidthCaptured.toNat < bw then UInt32.ofInt (toLong bw)
      else s.maximumBandwidthCaptured :=
    if_congr ((or_iff_right later).trans (and_iff_right counts)) rfl rfl
  have captured := ieee.single_mono (Nat.cast_nonneg s.maximumBandwidthCaptured.toNat)
  have zero := ieee.single_natCast (n := 0) (by decide)
  rw [Nat.cast_zero] at zero
  rw [zero] at captured
  rw [raises]
  by_cases nonneg : 0 ≤ rtt
  · obtain ⟨d, rfl⟩ := Int.eq_ofNat_of_zero_le nonneg
    have whole : toLong bw = b.segment.len.toNat / (d : Int) :=
      toLong_bandwidthSample ieee b.segment.len nonneg
    obtain ⟨low, high⟩ := bandwidthSample_mem ieee b.segment.len d
    have short := b.segment.len.toNat_lt
    have quotient := Nat.div_le_self b.segment.len.toNat d
    set k := b.segment.len.toNat / d
    have same : (b.segment.len.toNat : Int) / d = k := rfl
    rw [whole, same]
    by_cases few : s.maximumBandwidthCaptured.toNat < 2 ^ 24
    · rw [ieee.single_natCast few]
      split
      · rename_i more
        have reached : s.maximumBandwidthCaptured.toNat < k + 1 := by
          exact_mod_cast more.trans high
        rw [toNat_ofInt32]
        omega
      · rename_i most
        have reached : k ≤ s.maximumBandwidthCaptured.toNat := by
          exact_mod_cast low.trans (not_lt.mp most)
        omega
    · have large := ieee.le_single_natCast (not_lt.mp few)
      have small : bw < 2 ^ 24 := by
        refine high.trans_le ?_
        exact_mod_cast (by omega : k + 1 ≤ 2 ^ 24)
      rw [if_neg (not_lt.mpr (small.le.trans large))]
      omega
  · have nonpos := bandwidthSample_nonpos ieee b.segment.len (not_le.mp nonneg)
    have low := (len_ediv_mem b.segment.len rtt).2
    rw [if_neg (not_lt.mpr (nonpos.trans captured))]
    omega

omit ieee in
/-- A sample that does not count leaves the maximum. -/
theorem nextMaximum_skipped (skipped : ¬ s.counts b) :
    s.nextMaximum env b rtt = s.maximumBandwidthCaptured :=
  if_neg fun h => h.elim later fun h => skipped h.1

/-- After the first sample the maximum is unset exactly if it was unset before. -/
theorem nextMaximum_full_iff :
    s.nextMaximum env b rtt = 0xffffffff ↔ s.maximumBandwidthCaptured = 0xffffffff := by
  by_cases counts : s.counts b
  · have raised := nextMaximum_counted ieee rtt later counts
    have quotient := (len_ediv_mem b.segment.len rtt).1
    have full : (0xffffffff : UInt32).toNat = 4294967295 := rfl
    rw [← UInt32.toNat_inj, ← UInt32.toNat_inj, full]
    omega
  · rw [nextMaximum_skipped rtt later counts]

/-- After the first sample the maximum is 0 exactly if it was 0 before and no
sample of a byte a millisecond counts. -/
theorem nextMaximum_zero_iff :
    s.nextMaximum env b rtt = 0 ↔ s.maximumBandwidthCaptured = 0 ∧
      ¬ (s.counts b ∧ 0 < rtt ∧ rtt ≤ b.segment.len.toNat) := by
  by_cases counts : s.counts b
  · have raised := nextMaximum_counted ieee rtt later counts
    have quotient := (len_ediv_mem b.segment.len rtt).2
    have zero : (0 : UInt32).toNat = 0 := rfl
    rw [← UInt32.toNat_inj, ← UInt32.toNat_inj, zero, and_iff_right counts, ← quotient]
    omega
  · rw [nextMaximum_skipped rtt later counts]
    exact (and_iff_left fun h => counts h.1).symm

/-- At a counted tenth sample the bandwidth is the largest one yet. -/
theorem nextBandwidth_later :
    s.nextBandwidth env b rtt =
      if s.counts b ∧ (s.nextRtts b).tmod 10 = 0 then
        max s.bbr.bottleneckBandwidth
          (max s.maximumBandwidthCaptured.toNat (b.segment.len.toNat / rtt))
      else s.bbr.bottleneckBandwidth := by
  rw [CtcpState.nextBandwidth, if_neg later]
  by_cases tenth : s.counts b ∧ (s.nextRtts b).tmod 10 = 0
  · rw [if_pos tenth, ← nextMaximum_counted ieee rtt later tenth.1]
    by_cases less : s.bbr.bottleneckBandwidth < (s.nextMaximum env b rtt).toNat
    · rw [if_pos ⟨tenth.1, tenth.2, less⟩, max_eq_right less.le]
    · rw [if_neg fun h => less h.2.2, max_eq_left (not_lt.mp less)]
  · rw [if_neg tenth, if_neg fun h => tenth ⟨h.1, h.2.1⟩]

end

end NetLabs.Ctcp
