/-
NetLabs.Ctcp.CwndRange — the congestion window as a send window.

Each acknowledged segment ends in `on_ack_bbr_state_chk`, and `send_window`,
16 bits wide, is assigned from the 64 bits of `cwnd`. In exact arithmetic a
call that stays in its mode sets `cwnd` to the product of `rt_prop` and
`bottleneck_bandwidth`, in `STARTUP` and `PROBE_RTT` divided by 2.89; a call
that leaves its mode leaves `cwnd` alone. Nothing bounds the product from
either side: an RTT of zero makes it zero, a slow path makes the truncated
bandwidth zero, and a long one makes it overflow.

The first product is the length of the segment less what is left over when it
is divided by the RTT. Later ones come from the record: `rt_prop` stays, and
the bandwidth changes with each tenth sample that counts. `Sample.Fits` puts
this as a condition on the RTT, the length and the record before the call, and
with it the window is a send window (`cwnd_range`).
-/
import NetLabs.Ctcp.Estimates

namespace NetLabs.Ctcp

open NetLabs.Lib

variable {env : Env}

/-! ## The condition -/

/-- What the product of the two estimates may be in a mode: in `STARTUP` and
`PROBE_RTT` the window is the product divided by 2.89. -/
def BbrMode.Allows (product : Int) : BbrMode → Prop
  | .startup | .probeRtt => 3 ≤ product ∧ product ≤ 189399
  | .drain | .probeBw => 1 ≤ product ∧ product ≤ 65535

instance (product : Int) : DecidablePred (BbrMode.Allows product)
  | .startup | .probeRtt => inferInstanceAs (Decidable (3 ≤ product ∧ product ≤ 189399))
  | .drain | .probeBw => inferInstanceAs (Decidable (1 ≤ product ∧ product ≤ 65535))

/-- A sample of `len` bytes, acknowledged after `rtt` milliseconds, on which
the window stays in range: of the first one what the RTT divides is at least 3;
a later one comes when the mode is over, or the product allowed. -/
def SampleFits (s : CtcpState) (len rtt : Int) (counted : Prop) [Decidable counted] : Prop :=
  if s.bbr.rttsHappened = 0 then 3 ≤ len - len % rtt
  else
    let samples := if counted then s.bbr.rttsHappened + 1 else s.bbr.rttsHappened
    -- a new minimum of the RTT ends `PROBE_BW`
    let mode := if rtt ≤ s.minimumRttCaptured ∧ s.bbr.currentlyExecutingMode = .probeBw then
        .startup else s.bbr.currentlyExecutingMode
    let bandwidth := if counted ∧ samples.tmod 10 = 0 then
        max s.bbr.bottleneckBandwidth (max s.maximumBandwidthCaptured.toNat (len / rtt))
      else s.bbr.bottleneckBandwidth
    s.bbr.IsOver samples mode ∨ mode.Allows (s.bbr.rtProp * bandwidth)

instance (s : CtcpState) (len rtt : Int) (counted : Prop) [Decidable counted] :
    Decidable (SampleFits s len rtt counted) := inferInstanceAs (Decidable (ite _ _ _))

/-- An acknowledged segment on which the window stays in range. -/
def Sample.Fits (s : CtcpState) : Sample → Prop
  | .acked b rtt =>
      0 ≤ rtt ∧ SampleFits s b.segment.len.toNat rtt (b.appLimited = 0 ∧ b.appLimitedHigh = 0)
  | _ => True

/-! ## One call -/

/-- The window is one the 16 bits of `send_window` hold, and not zero. -/
def InRange (cwnd : Int) : Prop := 1 ≤ cwnd ∧ cwnd ≤ 65535

instance (cwnd : Int) : Decidable (InRange cwnd) := inferInstanceAs (Decidable (_ ∧ _))

/-- In exact arithmetic the first gain is `100 / 289`. -/
theorem gain_exact (wild : Int → ℚ) : bbrPacingGain .exact wild 1 = 100 / 289 := by
  show (1 / (289 / 100) : ℚ) = 100 / 289
  norm_num

theorem inRange_product (p : Int) : InRange (toLong (p : ℚ)) ↔ 1 ≤ p ∧ p ≤ 65535 := by
  rw [InRange, toLong_mem_iff (by decide) (by decide)]
  norm_cast
  omega

theorem inRange_gained (p : Int) :
    InRange (toLong ((p : ℚ) * (100 / 289))) ↔ 3 ≤ p ∧ p ≤ 189399 := by
  have lower : ((1 : Int) : ℚ) ≤ (p : ℚ) * (100 / 289) ↔ (289 : ℚ) ≤ (p * 100 : Int) := by
    push_cast
    constructor <;> intro h <;> linarith
  have upper : (p : ℚ) * (100 / 289) < (65535 : Int) + 1 ↔ ((p * 100 : Int) : ℚ) < 18939904 := by
    push_cast
    constructor <;> intro h <;> linarith
  rw [InRange, toLong_mem_iff (by decide) (by decide), lower, upper]
  norm_cast
  omega

/-- A call that stays in its mode sets a window in range exactly if the mode
allows the product. -/
theorem inRange_onAck (wild : Int → ℚ) {b : Bbr} (stays : ¬ b.Leaves) :
    InRange (onAckBbrStateChk .exact wild b).cwnd ↔
      b.currentlyExecutingMode.Allows (b.rtProp * b.bottleneckBandwidth) := by
  cases mode : b.currentlyExecutingMode with
  | startup =>
    have gained : (b.rtProp * (100 / 289) * b.bottleneckBandwidth : ℚ) =
        (b.rtProp * b.bottleneckBandwidth : Int) * (100 / 289) := by
      push_cast
      ring
    rw [Bbr.onAck_startup_stays _ _ stays mode, gain_exact, mode, BbrMode.Allows, ← inRange_gained]
    simp only [FloatArith.exact, id]
    rw [gained]
  | drain =>
    have same : (b.rtProp * 1 * b.bottleneckBandwidth : ℚ) =
        (b.rtProp * b.bottleneckBandwidth : Int) := by
      push_cast
      ring
    rw [Bbr.onAck_drain_stays _ _ stays mode, mode, BbrMode.Allows, ← inRange_product]
    simp only [FloatArith.exact, id, bbrPacingGain]
    rw [same]
  | probeBw =>
    have window : (onAckBbrStateChk .exact wild b).cwnd =
        toLong (((b.bottleneckBandwidth * b.rtProp : Int) : ℚ) * 1) := by
      simp only [onAckBbrStateChk, mode]
      split <;> rfl
    rw [window, mul_one, mul_comm, inRange_product, BbrMode.Allows]
  | probeRtt =>
    rw [Bbr.onAck_probeRtt_stays _ _ stays mode, gain_exact, mode, BbrMode.Allows,
      ← inRange_gained]
    rfl

/-! ## Runs -/

/-- Before the first acknowledgement. -/
structure Unsampled (s : CtcpState) : Prop where
  mode : s.bbr.currentlyExecutingMode = .startup
  none : s.bbr.rttsHappened = 0
  minimum : s.minimumRttCaptured = -1

/-- After it `send_window` is the window, which is in range. -/
structure Sampled (s : CtcpState) : Prop where
  range : InRange s.bbr.cwnd
  window : (s.sendWindow.toNat : Int) = s.bbr.cwnd
  counted : 0 < s.bbr.rttsHappened
  minimum : 0 ≤ s.minimumRttCaptured

theorem measure_window (env : Env) (s : CtcpState) (b : Buf) :
    (s.measure env b).bbr =
      onAckBbrStateChk env.float env.wildGain (s.sampledBbr env b (s.rtt env b)) ∧
    (s.measure env b).sendWindow = UInt16.ofInt (s.measure env b).bbr.cwnd := by
  rw [CtcpState.measure_sampledBbr]
  exact ⟨rfl, rfl⟩

/-- The first call does not leave its mode. -/
theorem Unsampled.stays {s : CtcpState} (h : Unsampled s) (b : Buf) (rtt : Int) :
    ¬ (s.sampledBbr env b rtt).Leaves := by
  have startup : (s.sampledBbr env b rtt).currentlyExecutingMode = .startup := by
    simp [CtcpState.sampledBbr, CtcpState.nextMode, h.mode]
  have one : (s.sampledBbr env b rtt).rttsHappened = 1 := by
    simp [CtcpState.sampledBbr, CtcpState.nextRtts, CtcpState.counts, h.none]
  rw [Bbr.Leaves, startup]
  simp only [one]
  exact fun leaves => absurd leaves.1 (by decide)

/-- The first sample sets the window to the part of the length that the RTT
divides, divided by 2.89. -/
theorem Unsampled.inRange_iff (exact' : env.float = .exact) {s : CtcpState} (h : Unsampled s)
    (b : Buf) (nonneg : 0 ≤ s.rtt env b) :
    InRange (s.measure env b).bbr.cwnd ↔ Sample.Fits s (.acked b (s.rtt env b)) := by
  have mode : (s.sampledBbr env b (s.rtt env b)).currentlyExecutingMode = .startup := by
    simp [CtcpState.sampledBbr, CtcpState.nextMode, h.mode]
  have ieee : env.float.Ieee := exact' ▸ FloatArith.ieee_exact
  have product : (s.sampledBbr env b (s.rtt env b)).rtProp *
      (s.sampledBbr env b (s.rtt env b)).bottleneckBandwidth =
        b.segment.len.toNat - b.segment.len.toNat % s.rtt env b := by
    simp only [CtcpState.sampledBbr, CtcpState.nextRtProp, h.minimum, if_true,
      CtcpState.nextBandwidth, h.none, toLong_bandwidthSample ieee _ nonneg]
    have parts := Int.mul_ediv_add_emod (b.segment.len.toNat : Int) (s.rtt env b)
    omega
  have bound := b.segment.len.toNat_lt
  have rest : 0 ≤ (b.segment.len.toNat : Int) % s.rtt env b := by
    rcases nonneg.eq_or_lt with zero | positive
    · rw [← zero, Int.emod_zero]
      exact Int.natCast_nonneg _
    · exact Int.emod_nonneg _ positive.ne'
  rw [(measure_window env s b).1, exact', inRange_onAck _ (h.stays b _), mode, BbrMode.Allows,
    product, Sample.Fits, SampleFits, if_pos h.none]
  omega

/-- A later sample leaves the window in its range, or sets it to the product of
the two estimates. -/
theorem Sampled.inRange_iff (exact' : env.float = .exact) {s : CtcpState} (h : Sampled s)
    (b : Buf) (nonneg : 0 ≤ s.rtt env b) :
    InRange (s.measure env b).bbr.cwnd ↔ Sample.Fits s (.acked b (s.rtt env b)) := by
  have later : s.bbr.rttsHappened ≠ 0 := h.counted.ne'
  have seen : s.minimumRttCaptured ≠ -1 := by
    have := h.minimum
    omega
  have counts := counts_later (b := b) later
  set sampled := s.sampledBbr env b (s.rtt env b) with sampled_eq
  have samples : sampled.rttsHappened = _ := nextRtts_later later
  have mode : sampled.currentlyExecutingMode =
      if s.rtt env b ≤ s.minimumRttCaptured ∧ s.bbr.currentlyExecutingMode = .probeBw then
        .startup else s.bbr.currentlyExecutingMode := if_congr (and_iff_right seen) rfl rfl
  have bandwidth : sampled.bottleneckBandwidth = _ :=
    (nextBandwidth_later (exact' ▸ FloatArith.ieee_exact) (s.rtt env b) later).trans
      (if_congr (and_congr_left' counts) rfl rfl)
  have rtProp : sampled.rtProp = s.bbr.rtProp := if_neg seen
  have fits : Sample.Fits s (.acked b (s.rtt env b)) ↔
      sampled.Leaves ∨ sampled.currentlyExecutingMode.Allows
        (sampled.rtProp * sampled.bottleneckBandwidth) := by
    rw [Bbr.leaves_iff, isOver_sampled, bandwidth, mode, rtProp, Sample.Fits, and_iff_right nonneg,
      SampleFits, if_neg later, ← samples]
    exact Iff.rfl
  rw [(measure_window env s b).1, exact', fits, ← sampled_eq]
  by_cases leaves : sampled.Leaves
  · rw [(Bbr.onAck_leaves _ _ leaves).1]
    exact ⟨fun _ => .inl leaves, fun _ => h.range⟩
  · rw [inRange_onAck _ leaves, or_iff_right leaves]

/-- An acknowledged segment that fits sets the window. -/
theorem sampled_measure (exact' : env.float = .exact) {s : CtcpState}
    (h : Unsampled s ∨ Sampled s) {b : Buf} (fits : Sample.Fits s (.acked b (s.rtt env b))) :
    Sampled (s.measure env b) := by
  have range : InRange (s.measure env b).bbr.cwnd :=
    h.elim (fun first => (first.inRange_iff exact' b fits.1).mpr fits)
      fun later => (later.inRange_iff exact' b fits.1).mpr fits
  have window := (measure_window env s b).2
  have nonneg := fits.1
  have minimum : (s.measure env b).minimumRttCaptured = s.nextMinimum (s.rtt env b) := by
    rw [CtcpState.measure_sampledBbr]
  have rtts : (s.measure env b).bbr.rttsHappened = s.nextRtts b := by
    rw [(measure_window env s b).1, Bbr.onAck_rttsHappened]
    rfl
  refine ⟨range, ?_, ?_, ?_⟩
  · rw [window, toNat_ofInt16]
    have high := range.2
    have low := range.1
    omega
  · have before : 0 ≤ s.bbr.rttsHappened ∧ (s.bbr.rttsHappened = 0 → s.counts b) :=
      h.elim (fun first => ⟨first.none.ge, fun _ => .inl first.none⟩)
        fun later => ⟨later.counted.le, fun none => .inl none⟩
    rw [rtts, CtcpState.nextRtts]
    split
    · omega
    · rename_i skipped
      have := mt before.2 skipped
      omega
  · rw [minimum, CtcpState.nextMinimum]
    split
    · exact nonneg
    · rename_i seen
      exact h.elim (fun first => absurd (.inl first.minimum) seen) (fun later => later.minimum)

/-- A tick leaves the window alone. -/
theorem Ticked.window_kept {s t : CtcpState} (h : Ticked s t) :
    (Unsampled s → Unsampled t) ∧ (Sampled s → Sampled t) := by
  have cwnd : t.bbr.cwnd = s.bbr.cwnd := by rw [h.bbr]
  have rtts : t.bbr.rttsHappened = s.bbr.rttsHappened := by rw [h.bbr]
  exact ⟨fun first => ⟨h.startup first.mode, rtts.trans first.none, h.minimum.trans first.minimum⟩,
    fun set => ⟨cwnd ▸ set.range, by rw [h.window, cwnd, set.window], rtts ▸ set.counted,
      h.minimum ▸ set.minimum⟩⟩

/-- What measures nothing leaves the window alone. -/
theorem Idle.window_kept {s t : CtcpState} (h : Idle s t) :
    (Unsampled s → Unsampled t) ∧ (Sampled s → Sampled t) := by
  have cwnd : t.bbr.cwnd = s.bbr.cwnd := by rw [h.bbr]
  have rtts : t.bbr.rttsHappened = s.bbr.rttsHappened := by rw [h.bbr]
  have mode : t.bbr.currentlyExecutingMode = s.bbr.currentlyExecutingMode := by rw [h.bbr]
  exact ⟨fun first => ⟨mode.trans first.mode, rtts.trans first.none,
      h.minimum.trans first.minimum⟩,
    fun set => ⟨cwnd ▸ set.range, by rw [h.window, cwnd, set.window], rtts ▸ set.counted,
      h.minimum ▸ set.minimum⟩⟩

/-- **The window is a send window.** In exact arithmetic, in every
interleaving of acknowledged segments with RTTs that are not negative, ticks
and everything else, whose acknowledged segments fit, after the first
acknowledged segment `cwnd` is from 1 to 65535 and `send_window` is `cwnd`.
The next acknowledged segment sets a window in range if and only if it fits,
too. -/
theorem cwnd_range {block : Bbr} {config : CtcpConfig} {samples : List Sample} {s : CtcpState}
    (exact' : env.float = .exact)
    (h : Run (Guarded (SampleStep env) Sample.Fits) (ctcpInit env block config) samples s) :
    ((∃ b rtt, Sample.acked b rtt ∈ samples) →
      InRange s.bbr.cwnd ∧ (s.sendWindow.toNat : Int) = s.bbr.cwnd) ∧
    ∀ b, 0 ≤ s.rtt env b →
      (InRange (s.measure env b).bbr.cwnd ↔ Sample.Fits s (.acked b (s.rtt env b))) := by
  have inv : (∀ b rtt, Sample.acked b rtt ∉ samples) ∧ Unsampled s ∨ Sampled s := by
    refine Run.history
      (fun samples s => (∀ b rtt, Sample.acked b rtt ∉ samples) ∧ Unsampled s ∨ Sampled s)
      (.inl ⟨fun _ _ => List.not_mem_nil, rfl, rfl, rfl⟩) (fun {samples t e u} _ ih hstep => ?_) h
    obtain ⟨hstep, fits⟩ := hstep
    cases hstep with
    | acked b => exact .inr (sampled_measure exact' (ih.imp_left And.right) fits)
    | tick =>
      have kept := (ticked_timerBbr env t).window_kept
      exact ih.imp (fun first => ⟨by simpa using first.1, kept.1 first.2⟩) kept.2
    | idle hidle =>
      have kept := hidle.window_kept
      exact ih.imp (fun first => ⟨by simpa using first.1, kept.1 first.2⟩) kept.2
  constructor
  · rintro ⟨b, rtt, acked⟩
    have set := inv.resolve_left fun first => first.1 b rtt acked
    exact ⟨set.range, set.window⟩
  · intro b nonneg
    exact inv.elim (fun first => first.2.inRange_iff exact' b nonneg)
      fun later => later.inRange_iff exact' b nonneg

/-- A segment of 21 bytes is acknowledged after a millisecond. -/
theorem cwnd_range_first :
    let env : Env := { Env.plain .little with clock := fun k => k + 1 }
    let s := CtcpState.fresh env
    let b : Buf := { s.makeBuf env [97] 16 with sentAt := 0, sent := 1 }
    ((∃ b' rtt, Sample.acked b' rtt ∈ [.acked b 1]) →
      InRange (s.measure env b).bbr.cwnd ∧
        ((s.measure env b).sendWindow.toNat : Int) = (s.measure env b).bbr.cwnd) ∧
    ∀ b', 0 ≤ (s.measure env b).rtt env b' →
      (InRange ((s.measure env b).measure env b').bbr.cwnd ↔
        Sample.Fits (s.measure env b) (.acked b' ((s.measure env b).rtt env b'))) := by
  intro env s b
  have fits : Sample.Fits s (.acked b 1) := by
    refine ⟨by decide, ?_⟩
    decide +kernel
  exact cwnd_range rfl (.single ⟨.acked s b, fits⟩)

/-- An RTT of zero milliseconds makes the window zero. -/
theorem cwnd_becomes_zero :
    let env : Env := .plain .little
    let s := CtcpState.fresh env
    let b : Buf := { s.makeBuf env [97] 16 with sentAt := 1000, sent := 1 }
    Run (SampleStep env) s [.acked b 0] (s.measure env b) ∧
      (s.measure env b).bbr.cwnd = 0 ∧ ¬ InRange (s.measure env b).bbr.cwnd := by
  intro env s b
  have zero : (s.measure env b).bbr.cwnd = 0 := by decide +kernel
  have rtt : s.rtt env b = 0 := by decide
  have ack : SampleStep env s (.acked b 0) (s.measure env b) := rtt ▸ .acked s b
  refine ⟨.single ack, zero, fun range => ?_⟩
  rw [zero] at range
  exact absurd range.1 (by decide)

end NetLabs.Ctcp
