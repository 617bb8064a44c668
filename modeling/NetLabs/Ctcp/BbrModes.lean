/-
NetLabs.Ctcp.BbrModes — the state machine of the congestion control.

Three functions assign the mode: `on_ack_bbr_state_chk`, the RTT sample in
the ACK loop of `ctcp_receive`, and `ctcp_timer`. `BbrStep` is one event of
this machine, labelled with the values the mode takes in it, one for each
place that may assign it, so that a tick that takes two transitions shows
both. The rest of the code may do what it likes to every field the machine
does not keep (`Quiet`); `run_bbr` says that every run of a connection is a
run of this machine.

`Bbr.Within` ties the mode to its companion fields. It holds after every
event whatever `malloc` left in the fields `bbr_init_state` does not set,
because every transition into a mode sets the field that mode looks at
(`bbr_modes`).
-/
import NetLabs.Ctcp.Samples

namespace NetLabs.Ctcp

open NetLabs.Lib Relation

variable {env : Env}

/-! ## Transitions -/

/-- The transitions of the mode. -/
inductive BbrMode.Edge : BbrMode → BbrMode → Prop where
  | startup_drain : Edge .startup .drain
  | drain_probeBw : Edge .drain .probeBw
  | probeBw_startup : Edge .probeBw .startup
  | probeBw_probeRtt : Edge .probeBw .probeRtt
  | probeRtt_probeBw : Edge .probeRtt .probeBw
  | probeRtt_startup : Edge .probeRtt .startup

/-- The mode takes these values one after the other, each the one before or
a transition away from it. -/
abbrev BbrMode.Walk : BbrMode → List BbrMode → BbrMode → Prop :=
  Run fun m next m' => m' = next ∧ ReflGen BbrMode.Edge m next

/-- The mode and the fields it depends on. With `slack` one sample has been
counted that the mode has not reacted to. -/
structure Bbr.Within (slack : Int) (b : Bbr) : Prop where
  counted : 0 ≤ b.rttsHappened
  probeBw : b.currentlyExecutingMode = .probeBw →
    2 ≤ b.tempCnterForProbeBw ∧ b.tempCnterForProbeBw ≤ 8
  drain : b.currentlyExecutingMode = .drain →
    0 ≤ b.rttsHappened - b.drainBegin ∧ b.rttsHappened - b.drainBegin ≤ 9 + slack
  probeRtt : b.currentlyExecutingMode = .probeRtt →
    0 ≤ b.rttsHappened - b.probeRttBegin ∧ b.rttsHappened - b.probeRttBegin ≤ 3 + slack

/-- A count that fits an `int` is stored as it is. -/
theorem wrapInt_count {x : Int} (nonneg : 0 ≤ x) (few : x < 2147483648) : wrapInt x = x := by
  rw [wrapInt, Int.bmod_eq_of_le] <;> omega

/-! ## Places that assign the mode -/

namespace Bbr

/-- What every place that assigns the mode does to the record. -/
structure Turn (slack slack' : Int) (b b' : Bbr) : Prop where
  edge : ReflGen BbrMode.Edge b.currentlyExecutingMode b'.currentlyExecutingMode
  counted : b.rttsHappened = b'.rttsHappened
  within : b.Within slack → b.rttsHappened < 2147483648 → b'.Within slack'

/-- The RTT sample: a new minimum ends `PROBE_BW`. -/
def endProbeBw (b : Bbr) : Bbr :=
  { b with
    currentlyExecutingMode :=
      if b.currentlyExecutingMode = .probeBw then .startup else b.currentlyExecutingMode }

/-- The first test of `ctcp_timer`: `PROBE_RTT` takes over the minimum. -/
def refreshRtProp (b : Bbr) (minimum : Int) : Bbr :=
  if b.currentlyExecutingMode = .probeRtt then { b with rtProp := minimum } else b

/-- The assignment `probe_rtt_begin = rtts_happened, currently_executing_mode
= PROBE_RTT`, which stands twice in `ctcp_timer`. -/
def beginProbeRtt (b : Bbr) : Bbr :=
  { b with probeRttBegin := wrapInt b.rttsHappened, currentlyExecutingMode := .probeRtt }

/-- The second test of `ctcp_timer`: the propagation time is out of date. -/
def expireRtProp (b : Bbr) (now : Int) : Bbr :=
  if b.rtProp ≤ sinceChange now b.rttChangeTimestamp ∧ b.currentlyExecutingMode = .probeBw then
    b.beginProbeRtt
  else b

/-- The third test of `ctcp_timer`: a smaller propagation time ends `PROBE_RTT`. -/
def endProbeRtt (b : Bbr) : Bbr :=
  if b.currentlyExecutingMode = .probeRtt then { b with currentlyExecutingMode := .startup } else b

/-- The third test of `ctcp_timer` turns `PROBE_BW` into `PROBE_RTT`. -/
def probeBwToRtt (b : Bbr) : Bbr :=
  if b.currentlyExecutingMode = .probeBw then b.beginProbeRtt else b

variable {slack : Int}

theorem Within.congr {b b' : Bbr} (h : b.Within slack)
    (mode : b'.currentlyExecutingMode = b.currentlyExecutingMode)
    (rtts : b'.rttsHappened = b.rttsHappened)
    (temp : b'.tempCnterForProbeBw = b.tempCnterForProbeBw)
    (drain : b'.drainBegin = b.drainBegin) (probe : b'.probeRttBegin = b.probeRttBegin) :
    b'.Within slack := by
  refine ⟨rtts ▸ h.counted, ?_, ?_, ?_⟩
  · rw [mode, temp]
    exact h.probeBw
  · rw [mode, rtts, drain]
    exact h.drain
  · rw [mode, rtts, probe]
    exact h.probeRtt

/-- In a given mode only the field of that mode counts. -/
theorem Within.ofStartup {b : Bbr} (counted : 0 ≤ b.rttsHappened)
    (mode : b.currentlyExecutingMode = .startup) : b.Within slack := by
  refine ⟨counted, ?_, ?_, ?_⟩ <;> simp [mode]

theorem Within.ofDrain {b : Bbr} (counted : 0 ≤ b.rttsHappened)
    (mode : b.currentlyExecutingMode = .drain)
    (dwell : 0 ≤ b.rttsHappened - b.drainBegin ∧ b.rttsHappened - b.drainBegin ≤ 9 + slack) :
    b.Within slack := by
  refine ⟨counted, ?_, fun _ => dwell, ?_⟩ <;> simp [mode]

theorem Within.ofProbeBw {b : Bbr} (counted : 0 ≤ b.rttsHappened)
    (mode : b.currentlyExecutingMode = .probeBw)
    (index : 2 ≤ b.tempCnterForProbeBw ∧ b.tempCnterForProbeBw ≤ 8) : b.Within slack := by
  refine ⟨counted, fun _ => index, ?_, ?_⟩ <;> simp [mode]

theorem Within.ofProbeRtt {b : Bbr} (counted : 0 ≤ b.rttsHappened)
    (mode : b.currentlyExecutingMode = .probeRtt)
    (dwell : 0 ≤ b.rttsHappened - b.probeRttBegin ∧
      b.rttsHappened - b.probeRttBegin ≤ 3 + slack) : b.Within slack := by
  refine ⟨counted, ?_, ?_, fun _ => dwell⟩ <;> simp [mode]

theorem turn_refl (b : Bbr) : Turn slack slack b b :=
  ⟨.refl, rfl, fun h _ => h⟩

/-- The propagation time does not matter. -/
theorem Turn.of_rtProp {slack' p : Int} {b b' : Bbr}
    (h : Turn slack slack' { b with rtProp := p } b') : Turn slack slack' b b' :=
  ⟨h.edge, h.counted, fun hb => h.within (hb.congr rfl rfl rfl rfl rfl)⟩

theorem turn_endProbeBw (b : Bbr) : Turn slack slack b b.endProbeBw := by
  by_cases hmode : b.currentlyExecutingMode = .probeBw
  · refine ⟨?_, rfl, fun h _ => .ofStartup h.counted ?_⟩
    · rw [endProbeBw, hmode]
      exact .single .probeBw_startup
    · rw [endProbeBw, if_pos hmode]
  · rw [endProbeBw, if_neg hmode]
    exact turn_refl b

theorem turn_beginProbeRtt {b : Bbr} (hmode : b.currentlyExecutingMode = .probeBw) :
    Turn 0 0 b b.beginProbeRtt := by
  refine ⟨?_, rfl, fun h few => ⟨h.counted, nofun, nofun, fun _ => ?_⟩⟩
  · rw [hmode]
    exact .single .probeBw_probeRtt
  · show 0 ≤ b.rttsHappened - wrapInt b.rttsHappened ∧ _ - wrapInt b.rttsHappened ≤ _
    rw [wrapInt_count h.counted few]
    simp [beginProbeRtt]

theorem turn_expireRtProp (b : Bbr) (now : Int) : Turn 0 0 b (b.expireRtProp now) := by
  rw [expireRtProp]
  split
  · rename_i h
    exact turn_beginProbeRtt h.2
  · exact turn_refl b

theorem turn_endProbeRtt (b : Bbr) : Turn slack slack b b.endProbeRtt := by
  rw [endProbeRtt]
  split
  · rename_i hmode
    refine ⟨?_, rfl, fun h _ => .ofStartup h.counted rfl⟩
    rw [hmode]
    exact .single .probeRtt_startup
  · exact turn_refl b

theorem turn_probeBwToRtt (b : Bbr) : Turn 0 0 b b.probeBwToRtt := by
  rw [probeBwToRtt]
  split
  · rename_i hmode
    exact turn_beginProbeRtt hmode
  · exact turn_refl b

/-- What `on_ack_bbr_state_chk` does in `STARTUP`. -/
theorem onAck_startup (f : FloatArith) (wild : Int → ℚ) {b : Bbr}
    (hmode : b.currentlyExecutingMode = .startup) :
    (onAckBbrStateChk f wild b).rttsHappened = b.rttsHappened ∧
    ((onAckBbrStateChk f wild b).currentlyExecutingMode = .startup ∨
      (onAckBbrStateChk f wild b).currentlyExecutingMode = .drain ∧
      (onAckBbrStateChk f wild b).drainBegin = wrapInt b.rttsHappened) := by
  simp only [onAckBbrStateChk, hmode]
  split
  · exact ⟨rfl, .inr ⟨rfl, rfl⟩⟩
  · exact ⟨rfl, .inl rfl⟩

/-- What `on_ack_bbr_state_chk` does in `DRAIN`. -/
theorem onAck_drain (f : FloatArith) (wild : Int → ℚ) {b : Bbr}
    (hmode : b.currentlyExecutingMode = .drain) :
    (onAckBbrStateChk f wild b).rttsHappened = b.rttsHappened ∧
    ((onAckBbrStateChk f wild b).currentlyExecutingMode = .probeBw ∧
      (onAckBbrStateChk f wild b).tempCnterForProbeBw = 2 ∨
      (onAckBbrStateChk f wild b).currentlyExecutingMode = .drain ∧
      (onAckBbrStateChk f wild b).drainBegin = b.drainBegin ∧
      b.rttsHappened - b.drainBegin < 10) := by
  simp only [onAckBbrStateChk, hmode]
  split
  · exact ⟨rfl, .inl ⟨rfl, rfl⟩⟩
  · rename_i dwell
    exact ⟨rfl, .inr ⟨rfl, rfl, Int.not_le.mp dwell⟩⟩

/-- What `on_ack_bbr_state_chk` does in `PROBE_BW`. -/
theorem onAck_probeBw (f : FloatArith) (wild : Int → ℚ) {b : Bbr}
    (hmode : b.currentlyExecutingMode = .probeBw) :
    (onAckBbrStateChk f wild b).rttsHappened = b.rttsHappened ∧
    (onAckBbrStateChk f wild b).currentlyExecutingMode = .probeBw ∧
    ((onAckBbrStateChk f wild b).tempCnterForProbeBw = b.tempCnterForProbeBw ∨
      (onAckBbrStateChk f wild b).tempCnterForProbeBw =
        (if b.tempCnterForProbeBw = 8 then 1 else b.tempCnterForProbeBw) + 1) := by
  simp only [onAckBbrStateChk, hmode]
  split
  · exact ⟨rfl, rfl, .inr rfl⟩
  · exact ⟨rfl, hmode, .inl rfl⟩

/-- What `on_ack_bbr_state_chk` does in `PROBE_RTT`. -/
theorem onAck_probeRtt (f : FloatArith) (wild : Int → ℚ) {b : Bbr}
    (hmode : b.currentlyExecutingMode = .probeRtt) :
    (onAckBbrStateChk f wild b).rttsHappened = b.rttsHappened ∧
    ((onAckBbrStateChk f wild b).currentlyExecutingMode = .probeBw ∧
      (onAckBbrStateChk f wild b).tempCnterForProbeBw = 2 ∨
      (onAckBbrStateChk f wild b).currentlyExecutingMode = .probeRtt ∧
      (onAckBbrStateChk f wild b).probeRttBegin = b.probeRttBegin ∧
      b.rttsHappened - b.probeRttBegin < 4) := by
  simp only [onAckBbrStateChk, hmode]
  split
  · exact ⟨rfl, .inl ⟨rfl, rfl⟩⟩
  · rename_i dwell
    exact ⟨rfl, .inr ⟨rfl, rfl, Int.not_le.mp dwell⟩⟩

/-- `on_ack_bbr_state_chk` takes back the slack of the sample before it. -/
theorem turn_onAckBbrStateChk (f : FloatArith) (wild : Int → ℚ) (b : Bbr) :
    Turn 1 0 b (onAckBbrStateChk f wild b) := by
  cases hmode : b.currentlyExecutingMode with
  | startup =>
    obtain ⟨rtts, mode | ⟨mode, drain⟩⟩ := onAck_startup f wild hmode
    · refine ⟨?_, rtts.symm, fun h _ => .ofStartup (rtts ▸ h.counted) mode⟩
      rw [hmode, mode]
    · refine ⟨?_, rtts.symm, fun h few => .ofDrain (rtts ▸ h.counted) mode ?_⟩
      · rw [hmode, mode]
        exact .single .startup_drain
      · rw [rtts, drain, wrapInt_count h.counted few]
        omega
  | drain =>
    obtain ⟨rtts, ⟨mode, temp⟩ | ⟨mode, drain, dwell⟩⟩ := onAck_drain f wild hmode
    · refine ⟨?_, rtts.symm, fun h _ => .ofProbeBw (rtts ▸ h.counted) mode ?_⟩
      · rw [hmode, mode]
        exact .single .drain_probeBw
      · omega
    · refine ⟨?_, rtts.symm, fun h _ => .ofDrain (rtts ▸ h.counted) mode ?_⟩
      · rw [hmode, mode]
      · have := h.drain hmode
        omega
  | probeBw =>
    obtain ⟨rtts, mode, temp⟩ := onAck_probeBw f wild hmode
    refine ⟨?_, rtts.symm, fun h _ => .ofProbeBw (rtts ▸ h.counted) mode ?_⟩
    · rw [hmode, mode]
    · have := h.probeBw hmode
      split at temp <;> omega
  | probeRtt =>
    obtain ⟨rtts, ⟨mode, temp⟩ | ⟨mode, probe, dwell⟩⟩ := onAck_probeRtt f wild hmode
    · refine ⟨?_, rtts.symm, fun h _ => .ofProbeBw (rtts ▸ h.counted) mode ?_⟩
      · rw [hmode, mode]
        exact .single .probeRtt_probeBw
      · omega
    · refine ⟨?_, rtts.symm, fun h _ => .ofProbeRtt (rtts ▸ h.counted) mode ?_⟩
      · rw [hmode, mode]
      · have := h.probeRtt hmode
        omega

end Bbr

/-! ## Events -/

namespace CtcpState

/-- The state in which `measure` takes the bandwidth sample. -/
def sampleRtt (env : Env) (s : CtcpState) (b : Buf) : CtcpState :=
  { s with ticks := s.ticks + 1 }.recordRtt (env.clock s.ticks - b.sentAt)

/-- The record after the second test of `checkRtProp`. -/
def expired (env : Env) (s : CtcpState) : Bbr :=
  (s.bbr.refreshRtProp s.minimumRttCaptured).expireRtProp (env.clock s.ticks)

/-- The record after the first half of the third test. -/
def shortened (env : Env) (s : CtcpState) : Bbr :=
  { s.expired env with rtProp := s.minimumRttCaptured }.endProbeRtt

/-- The values the mode takes while an acknowledged segment is measured. -/
def measureModes (env : Env) (s : CtcpState) (b : Buf) : List BbrMode :=
  [(s.sampleRtt env b).bbr.currentlyExecutingMode, (s.measure env b).bbr.currentlyExecutingMode]

/-- The values the mode takes in the three tests of `ctcp_timer`. -/
def checkModes (env : Env) (s : CtcpState) : List BbrMode :=
  (s.expired env).currentlyExecutingMode ::
    if s.minimumRttCaptured < (s.expired env).rtProp then
      [(s.shortened env).currentlyExecutingMode,
        (s.shortened env).probeBwToRtt.currentlyExecutingMode]
    else []

/-- The values the mode takes in a visit of `ctcp_timer`. -/
def timerModes (env : Env) (s : CtcpState) : List BbrMode :=
  if (s.countDown env).bbr.rttMinimumCheckForWindowMs < 0 then (s.countDown env).checkModes env
  else []

theorem checkRtProp_bbr (s : CtcpState) :
    (s.checkRtProp env).bbr =
      { (if s.minimumRttCaptured < (s.expired env).rtProp then (s.shortened env).probeBwToRtt
          else s.expired env) with rttMinimumCheckForWindowMs := 10000 } := rfl

end CtcpState

/-- The machine is left alone: the mode and the fields it depends on. -/
structure Quiet (s t : CtcpState) : Prop where
  mode : t.bbr.currentlyExecutingMode = s.bbr.currentlyExecutingMode
  rtts : t.bbr.rttsHappened = s.bbr.rttsHappened
  temp : t.bbr.tempCnterForProbeBw = s.bbr.tempCnterForProbeBw
  drain : t.bbr.drainBegin = s.bbr.drainBegin
  probe : t.bbr.probeRttBegin = s.bbr.probeRttBegin

theorem Quiet.refl (s : CtcpState) : Quiet s s := ⟨rfl, rfl, rfl, rfl, rfl⟩

theorem Quiet.trans {s t u : CtcpState} (h : Quiet s t) (h' : Quiet t u) : Quiet s u :=
  ⟨h'.mode.trans h.mode, h'.rtts.trans h.rtts, h'.temp.trans h.temp, h'.drain.trans h.drain,
    h'.probe.trans h.probe⟩

theorem Quiet.within {s t : CtcpState} {slack : Int} (h : Quiet s t) (hs : s.bbr.Within slack) :
    t.bbr.Within slack :=
  hs.congr h.mode h.rtts h.temp h.drain h.probe

/-- An event, labelled with the values the mode takes in it. -/
inductive BbrStep (env : Env) : CtcpState → List BbrMode → CtcpState → Prop where
  /-- A segment, application limited or not, is acknowledged. -/
  | acked (s : CtcpState) (b : Buf) : BbrStep env s (s.measureModes env b) (s.measure env b)
  /-- `ctcp_timer` visits the connection. -/
  | tick (s : CtcpState) : BbrStep env s (s.timerModes env) (s.timerBbr env)
  /-- Anything else. -/
  | other {s t : CtcpState} (h : Quiet s t) : BbrStep env s [] t

theorem turn_recordRtt (s : CtcpState) (rtt : Int) :
    Bbr.Turn 0 0 s.bbr (s.recordRtt rtt).bbr := by
  rw [CtcpState.recordRtt]
  split
  · exact ⟨.refl, rfl, fun h _ => h.congr rfl rfl rfl rfl rfl⟩
  · split
    · exact Bbr.turn_endProbeBw s.bbr
    · exact Bbr.turn_refl s.bbr

theorem quiet_countDown (env : Env) (s : CtcpState) : Quiet s (s.countDown env) := by
  apply countDown_relation Quiet .refl .trans
  case stamp => exact fun _ _ _ => ⟨rfl, rfl, rfl, rfl, rfl⟩
  case count => exact fun _ _ _ _ => ⟨rfl, rfl, rfl, rfl, rfl⟩

theorem turn_expired (s : CtcpState) : Bbr.Turn 0 0 s.bbr (s.expired env) := by
  rw [CtcpState.expired, Bbr.refreshRtProp]
  split
  · exact (Bbr.turn_expireRtProp _ _).of_rtProp
  · exact Bbr.turn_expireRtProp _ _

theorem turn_shortened (s : CtcpState) : Bbr.Turn 0 0 (s.expired env) (s.shortened env) :=
  (Bbr.turn_endProbeRtt _).of_rtProp

/-- The bandwidth sample counts at most one and touches nothing else. -/
theorem recordBandwidth_spec (env : Env) (s : CtcpState) (b : Buf) (rtt : Int) :
    (s.recordBandwidth env b rtt).bbr.currentlyExecutingMode = s.bbr.currentlyExecutingMode ∧
    s.bbr.rttsHappened ≤ (s.recordBandwidth env b rtt).bbr.rttsHappened ∧
    (s.bbr.Within 0 → (s.recordBandwidth env b rtt).bbr.Within 1) := by
  have counted : ∀ b' : Bbr, b'.currentlyExecutingMode = s.bbr.currentlyExecutingMode →
      b'.rttsHappened = s.bbr.rttsHappened + 1 →
      b'.tempCnterForProbeBw = s.bbr.tempCnterForProbeBw →
      b'.drainBegin = s.bbr.drainBegin → b'.probeRttBegin = s.bbr.probeRttBegin →
      s.bbr.Within 0 → b'.Within 1 := by
    intro b' mode rtts temp drain probe h
    refine ⟨?_, ?_, ?_, ?_⟩
    · have := h.counted
      omega
    · rw [mode, temp]
      exact h.probeBw
    · rw [mode, rtts, drain]
      intro hmode
      have := h.drain hmode
      omega
    · rw [mode, rtts, probe]
      intro hmode
      have := h.probeRtt hmode
      omega
  have same : s.bbr.Within 0 → s.bbr.Within 1 := by
    intro h
    refine ⟨h.counted, h.probeBw, fun hmode => ?_, fun hmode => ?_⟩
    · have := h.drain hmode
      omega
    · have := h.probeRtt hmode
      omega
  rw [CtcpState.recordBandwidth]
  split
  · exact ⟨rfl, Int.le_add_of_nonneg_right (by decide), counted _ rfl rfl rfl rfl rfl⟩
  · split
    · exact ⟨rfl, Int.le_add_of_nonneg_right (by decide), counted _ rfl rfl rfl rfl rfl⟩
    · exact ⟨rfl, Int.le_refl _, same⟩

/-- The three tests of `ctcp_timer`. -/
theorem checkRtProp_spec (env : Env) (s : CtcpState) :
    BbrMode.Walk s.bbr.currentlyExecutingMode (s.checkModes env)
      (s.checkRtProp env).bbr.currentlyExecutingMode ∧
    (s.checkRtProp env).bbr.rttsHappened = s.bbr.rttsHappened ∧
    (s.bbr.rttsHappened < 2147483648 → s.bbr.Within 0 → (s.checkRtProp env).bbr.Within 0) := by
  have expired : Bbr.Turn 0 0 s.bbr (s.expired env) := turn_expired s
  have shortened : Bbr.Turn 0 0 (s.expired env) (s.shortened env) := turn_shortened s
  have last := Bbr.turn_probeBwToRtt (s.shortened env)
  have first : BbrMode.Walk s.bbr.currentlyExecutingMode
      [(s.expired env).currentlyExecutingMode] (s.expired env).currentlyExecutingMode :=
    .single ⟨rfl, expired.edge⟩
  rw [CtcpState.checkRtProp_bbr, CtcpState.checkModes]
  split
  · have counted := expired.counted.trans (shortened.counted.trans last.counted)
    refine ⟨(first.snoc ⟨rfl, shortened.edge⟩).snoc ⟨rfl, last.edge⟩, counted.symm,
      fun few h => ?_⟩
    have few' : (s.expired env).rttsHappened < 2147483648 := expired.counted ▸ few
    have few'' : (s.shortened env).rttsHappened < 2147483648 := shortened.counted ▸ few'
    exact (last.within (shortened.within (expired.within h few) few') few'').congr
      rfl rfl rfl rfl rfl
  · refine ⟨first, expired.counted.symm, fun few h => ?_⟩
    exact (expired.within h few).congr rfl rfl rfl rfl rfl

/-- What an event does: the labels are a walk from the mode before to the
mode after, the samples do not become fewer, and the bounds hold again. -/
theorem bbrStep_spec {s t : CtcpState} {modes : List BbrMode} (h : BbrStep env s modes t) :
    BbrMode.Walk s.bbr.currentlyExecutingMode modes t.bbr.currentlyExecutingMode ∧
    s.bbr.rttsHappened ≤ t.bbr.rttsHappened ∧
    (t.bbr.rttsHappened < 2147483648 → s.bbr.Within 0 → t.bbr.Within 0) := by
  cases h with
  | acked b =>
    have first := turn_recordRtt { s with ticks := s.ticks + 1 } (env.clock s.ticks - b.sentAt)
    obtain ⟨mode, more, within⟩ :=
      recordBandwidth_spec env (s.sampleRtt env b) b (env.clock s.ticks - b.sentAt)
    have last := Bbr.turn_onAckBbrStateChk env.float env.wildGain
      ((s.sampleRtt env b).recordBandwidth env b (env.clock s.ticks - b.sentAt)).bbr
    have before : s.bbr.rttsHappened = (s.sampleRtt env b).bbr.rttsHappened := first.counted
    have after : _ = (s.measure env b).bbr.rttsHappened := last.counted
    refine ⟨.snoc (.snoc .nil ⟨rfl, first.edge⟩) ⟨rfl, ?_⟩, by omega, fun few h => ?_⟩
    · rw [← mode]
      exact last.edge
    · have begun : s.bbr.rttsHappened < 2147483648 := by omega
      exact last.within (within (first.within h begun)) (by omega)
  | tick =>
    have started := quiet_countDown env s
    rw [CtcpState.timerModes, CtcpState.timerBbr_eq, ← started.mode, ← started.rtts]
    split
    · obtain ⟨walk, rtts, within⟩ := checkRtProp_spec env (s.countDown env)
      refine ⟨walk, Int.le_of_eq rtts.symm, fun few h => ?_⟩
      exact within (rtts ▸ few) (started.within h)
    · exact ⟨.nil, Int.le_refl _, fun _ => started.within⟩
  | other quiet =>
    refine ⟨?_, Int.le_of_eq quiet.rtts.symm, fun _ => quiet.within⟩
    rw [quiet.mode]
    exact .nil

/-! ## Runs -/

/-- **The modes of BBR.** After every interleaving of acknowledged segments,
ticks and everything else, with fewer than `2 ^ 31` counted samples, the mode
has taken one transition at a time, and the index and the two dwell times are
in their bounds. -/
theorem bbr_modes {block : Bbr} {config : CtcpConfig} {modes : List (List BbrMode)} {s : CtcpState}
    (h : Run (BbrStep env) (ctcpInit env block config) modes s)
    (few : s.bbr.rttsHappened < 2147483648) :
    BbrMode.Walk .startup modes.flatten s.bbr.currentlyExecutingMode ∧
    (s.bbr.currentlyExecutingMode = .probeBw →
      2 ≤ s.bbr.tempCnterForProbeBw ∧ s.bbr.tempCnterForProbeBw ≤ 8) ∧
    (s.bbr.currentlyExecutingMode = .drain →
      0 ≤ s.bbr.rttsHappened - s.bbr.drainBegin ∧
      s.bbr.rttsHappened - s.bbr.drainBegin ≤ 9) ∧
    (s.bbr.currentlyExecutingMode = .probeRtt →
      0 ≤ s.bbr.rttsHappened - s.bbr.probeRttBegin ∧
      s.bbr.rttsHappened - s.bbr.probeRttBegin ≤ 3) := by
  have inv := Run.history
    (fun modes t => BbrMode.Walk .startup modes.flatten t.bbr.currentlyExecutingMode ∧
      (t.bbr.rttsHappened < 2147483648 → t.bbr.Within 0))
    ⟨.nil, fun _ => .ofStartup (Int.le_refl 0) rfl⟩
    (fun {modes t new u} _ ht hstep => ?_) h
  · obtain ⟨walk, within⟩ := inv
    have hs := within few
    exact ⟨walk, hs.probeBw, hs.drain, hs.probeRtt⟩
  · obtain ⟨walk, within⟩ := ht
    obtain ⟨more, rtts, keep⟩ := bbrStep_spec hstep
    refine ⟨?_, fun few => keep few (within (by omega))⟩
    rw [List.flatten_append, List.flatten_singleton]
    exact walk.trans more

/-- The third acknowledged segment ends `STARTUP` when nothing was left in
`startup_bw_least_recent`. -/
theorem bbr_modes_drain :
    let env : Env := .plain .little
    let b : Buf := (CtcpState.fresh env).makeBuf env [97] 16
    let first := (CtcpState.fresh env).measure env b
    let second := first.measure env b
    let s := second.measure env b
    BbrMode.Walk .startup
      [(CtcpState.fresh env).measureModes env b, first.measureModes env b,
        second.measureModes env b].flatten s.bbr.currentlyExecutingMode ∧
    (s.bbr.currentlyExecutingMode = .probeBw →
      2 ≤ s.bbr.tempCnterForProbeBw ∧ s.bbr.tempCnterForProbeBw ≤ 8) ∧
    (s.bbr.currentlyExecutingMode = .drain →
      0 ≤ s.bbr.rttsHappened - s.bbr.drainBegin ∧
      s.bbr.rttsHappened - s.bbr.drainBegin ≤ 9) ∧
    (s.bbr.currentlyExecutingMode = .probeRtt →
      0 ≤ s.bbr.rttsHappened - s.bbr.probeRttBegin ∧
      s.bbr.rttsHappened - s.bbr.probeRttBegin ≤ 3) := by
  intro env b first second s
  have one : Run (BbrStep env) (.fresh env) _ first := .single (.acked _ b)
  have two := one.snoc (.acked first b)
  have three := two.snoc (.acked second b)
  exact bbr_modes three (by decide +kernel)

/-! ## The connection is such a machine -/

/-- Some events of the machine lead from `s` to `t`. -/
def BbrEvents (env : Env) (s t : CtcpState) : Prop := ∃ modes, Run (BbrStep env) s modes t

theorem BbrEvents.trans {s t u : CtcpState} (h : BbrEvents env s t) (h' : BbrEvents env t u) :
    BbrEvents env s u := by
  obtain ⟨_, hs⟩ := h
  obtain ⟨_, ht⟩ := h'
  exact ⟨_, hs.trans ht⟩

theorem Quiet.events {s t : CtcpState} (h : Quiet s t) : BbrEvents env s t :=
  ⟨_, .single (.other h)⟩

theorem Idle.quiet {s t : CtcpState} (h : Idle s t) : Quiet s t := by
  refine ⟨?_, ?_, ?_, ?_, ?_⟩ <;> rw [h.bbr]

/-- A call is a series of events, and so is a run. -/
theorem apply_bbrEvents (env : Env) (s : CtcpState) (op : Op) :
    BbrEvents env s (s.apply env op) := by
  apply apply_relation (BbrEvents env) .trans
  case idle =>
    intro s t h
    exact h.quiet.events
  case measured =>
    intro s b
    exact ⟨_, .single (.acked s b)⟩
  case visited =>
    intro s
    exact ⟨_, .single (.tick s)⟩

theorem run_bbr {s u : CtcpState} {ops : List Op} (h : Run (Step env) s ops u) :
    BbrEvents env s u := by
  refine Run.invariant (BbrEvents env s) (Quiet.refl s).events (fun {t op u} ht hstep => ?_) h
  rw [hstep.2]
  exact ht.trans (apply_bbrEvents env t op)

end NetLabs.Ctcp
