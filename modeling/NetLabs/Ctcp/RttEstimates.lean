/-
NetLabs.Ctcp.RttEstimates — the two estimates of the round-trip time.

`minimum_rtt_captured` is -1 until the first segment is acknowledged, and
`rt_prop` starts at 200. The sample of a segment lowers the first; the block
of `ctcp_timer` copies the first to the second when it is smaller, without
asking whether there is a sample. -1 is smaller than 200, so a countdown that
runs out before the first ACK leaves `rt_prop` at -1.

`Measured` is what the two estimates have to be after given samples. An
acknowledged segment always keeps it (`measured_acked`), a visit of the timer
exactly when it does not find the countdown over with no sample taken
(`measured_tick`).
-/
import NetLabs.Ctcp.BbrModes
import Mathlib.Data.Int.ConditionallyCompleteOrder
import Mathlib.Order.Monotone.Defs

namespace NetLabs.Ctcp

open NetLabs.Lib

variable {env : Env}

/-! ## The two estimates after a step -/

/-- The RTT an event measures. -/
def Sample.rtt? : Sample → Option Int
  | .acked _ rtt => some rtt
  | .tick => none
  | .idle => none

/-- The RTTs measured so far. -/
def measuredRtts (samples : List Sample) : List Int := samples.filterMap Sample.rtt?

theorem measuredRtts_snoc (samples : List Sample) (e : Sample) :
    measuredRtts (samples ++ [e]) = measuredRtts samples ++ e.rtt?.toList := by
  rw [measuredRtts, List.filterMap_append]
  cases e <;> rfl

namespace CtcpState

/-- The countdown of `ctcp_timer` is below zero on this visit, so the visit
re-evaluates `rt_prop`. -/
def windowOver (env : Env) (s : CtcpState) : Prop :=
  (s.countDown env).bbr.rttMinimumCheckForWindowMs < 0

instance (env : Env) (s : CtcpState) : Decidable (s.windowOver env) :=
  inferInstanceAs (Decidable (_ < _))

theorem timerBbr_window (env : Env) (s : CtcpState) :
    s.timerBbr env =
      if s.windowOver env then (s.countDown env).checkRtProp env else s.countDown env := rfl

theorem measure_estimates (env : Env) (s : CtcpState) (b : Buf) :
    (s.measure env b).minimumRttCaptured = s.nextMinimum (s.rtt env b) ∧
    (s.measure env b).bbr.rtProp = s.nextRtProp (s.rtt env b) := by
  rw [measure_sampledBbr]
  exact ⟨rfl, (Bbr.onAck_keeps _ _ _).1⟩

theorem countDown_estimates (env : Env) (s : CtcpState) :
    (s.countDown env).minimumRttCaptured = s.minimumRttCaptured ∧
    (s.countDown env).bbr.rtProp = s.bbr.rtProp := by
  let R (s t : CtcpState) : Prop :=
    t.minimumRttCaptured = s.minimumRttCaptured ∧ t.bbr.rtProp = s.bbr.rtProp
  apply countDown_relation R (fun _ => ⟨rfl, rfl⟩)
  case trans => exact fun hs ht => ⟨ht.1.trans hs.1, ht.2.trans hs.2⟩
  case stamp => exact fun _ _ _ => ⟨rfl, rfl⟩
  case count => exact fun _ _ _ _ => ⟨rfl, rfl⟩

/-- The block of the timer copies the minimum to `rt_prop` or leaves it; a
smaller minimum it always copies. -/
theorem checkRtProp_estimates (s : CtcpState) :
    (s.checkRtProp env).minimumRttCaptured = s.minimumRttCaptured ∧
    ((s.checkRtProp env).bbr.rtProp = s.minimumRttCaptured ∨
      (s.checkRtProp env).bbr.rtProp = s.bbr.rtProp ∧ s.bbr.rtProp ≤ s.minimumRttCaptured) := by
  have kept : (s.expired env).rtProp = s.minimumRttCaptured ∨
      (s.expired env).rtProp = s.bbr.rtProp := by
    rw [expired, Bbr.refreshRtProp, Bbr.expireRtProp, Bbr.beginProbeRtt]
    split_ifs <;> simp
  have copied : (s.shortened env).probeBwToRtt.rtProp = s.minimumRttCaptured := by
    rw [shortened, Bbr.probeBwToRtt, Bbr.beginProbeRtt, Bbr.endProbeRtt]
    split_ifs <;> rfl
  refine ⟨rfl, ?_⟩
  rw [checkRtProp_bbr]
  split
  · exact .inl copied
  · rename_i notLess
    rcases kept with same | same
    · exact .inl same
    · exact .inr ⟨same, by omega⟩

/-- A visit of the timer that finds the countdown over leaves the minimum, and may
copy it to `rt_prop`. -/
theorem timerBbr_over {s : CtcpState} (ended : s.windowOver env) :
    (s.timerBbr env).minimumRttCaptured = s.minimumRttCaptured ∧
    ((s.timerBbr env).bbr.rtProp = s.minimumRttCaptured ∨
      (s.timerBbr env).bbr.rtProp = s.bbr.rtProp ∧ s.bbr.rtProp ≤ s.minimumRttCaptured) := by
  obtain ⟨minimum, rtProp⟩ := countDown_estimates env s
  rw [timerBbr_window, if_pos ended, ← minimum, ← rtProp]
  exact checkRtProp_estimates _

/-- A visit that finds the countdown running leaves both estimates. -/
theorem timerBbr_running {s : CtcpState} (running : ¬ s.windowOver env) :
    (s.timerBbr env).minimumRttCaptured = s.minimumRttCaptured ∧
    (s.timerBbr env).bbr.rtProp = s.bbr.rtProp := by
  rw [timerBbr_window, if_neg running]
  exact countDown_estimates env s

end CtcpState

/-! ## What the estimates have to be -/

/-- The estimates after these RTTs were measured. -/
structure Measured (rtts : List Int) (s : CtcpState) : Prop where
  rtProp : s.bbr.rtProp = 200 ∨ s.bbr.rtProp ∈ rtts
  least : rtts ≠ [] → s.minimumRttCaptured ∈ rtts ∧ (∀ r ∈ rtts, s.minimumRttCaptured ≤ r) ∧
    s.minimumRttCaptured ≤ s.bbr.rtProp

/-- With this much more the estimates are kept: the RTTs are not negative,
and -1 stands for none. -/
structure Estimates (rtts : List Int) (s : CtcpState) : Prop extends Measured rtts s where
  nonneg : ∀ r ∈ rtts, 0 ≤ r
  sentinel : s.minimumRttCaptured = -1 ↔ rtts = []

theorem estimates_init (block : Bbr) (config : CtcpConfig) :
    Estimates [] (ctcpInit env block config) where
  rtProp := .inl rfl
  least none := absurd rfl none
  nonneg := List.forall_mem_nil _
  sentinel := ⟨fun _ => rfl, fun _ => rfl⟩

section Step

variable {rtts : List Int} {s t : CtcpState}

/-- The estimates stay when nothing is measured and they are not touched. -/
theorem Estimates.congr (h : Estimates rtts s)
    (minimum : t.minimumRttCaptured = s.minimumRttCaptured)
    (rtProp : t.bbr.rtProp = s.bbr.rtProp) : Estimates rtts t where
  rtProp := rtProp ▸ h.rtProp
  least some := by
    rw [minimum, rtProp]
    exact h.least some
  nonneg := h.nonneg
  sentinel := minimum ▸ h.sentinel

/-- An acknowledged segment keeps the estimates. -/
theorem Estimates.acked (h : Estimates rtts s) (b : Buf) (nonneg : 0 ≤ s.rtt env b) :
    Estimates (rtts ++ [s.rtt env b]) (s.measure env b) := by
  obtain ⟨minimum, rtProp⟩ := CtcpState.measure_estimates env s b
  have all : ∀ r ∈ rtts ++ [s.rtt env b], 0 ≤ r := by
    intro r hr
    rw [List.mem_append, List.mem_singleton] at hr
    rcases hr with hr | rfl
    · exact h.nonneg r hr
    · exact nonneg
  have last : s.rtt env b ∈ rtts ++ [s.rtt env b] := by simp
  by_cases none : s.minimumRttCaptured = -1
  · -- the first sample
    obtain rfl := h.sentinel.mp none
    rw [CtcpState.nextMinimum, if_pos (.inl none)] at minimum
    rw [CtcpState.nextRtProp, if_pos none] at rtProp
    refine ⟨⟨?_, fun _ => ?_⟩, all, ?_⟩
    · rw [rtProp]
      exact .inr last
    · rw [minimum, rtProp]
      exact ⟨last, fun r hr => Int.le_of_eq (List.mem_singleton.mp hr).symm, Int.le_refl _⟩
    · rw [minimum]
      exact ⟨fun bad => by omega, fun bad => absurd bad (List.cons_ne_nil _ _)⟩
  · obtain ⟨mem, least, below⟩ := h.least (fun empty => none (h.sentinel.mpr empty))
    rw [CtcpState.nextRtProp, if_neg none] at rtProp
    have split : (s.measure env b).minimumRttCaptured = s.rtt env b ∧
          s.rtt env b ≤ s.minimumRttCaptured ∨
        (s.measure env b).minimumRttCaptured = s.minimumRttCaptured ∧
          s.minimumRttCaptured ≤ s.rtt env b := by
      rw [minimum, CtcpState.nextMinimum]
      split
      · rename_i less
        exact .inl ⟨rfl, less.resolve_left none⟩
      · rename_i notLess
        exact .inr ⟨rfl, by omega⟩
    refine ⟨⟨?_, fun _ => ⟨?_, ?_, ?_⟩⟩, all, ?_⟩
    · rw [rtProp]
      exact h.rtProp.imp_right (List.mem_append_left _)
    · rcases split with ⟨new, _⟩ | ⟨old, _⟩
      · exact new ▸ last
      · exact old ▸ List.mem_append_left _ mem
    · intro r hr
      rw [List.mem_append, List.mem_singleton] at hr
      rcases hr with hr | rfl
      · have := least r hr
        omega
      · omega
    · omega
    · have positive := h.nonneg _ mem
      exact ⟨fun bad => by omega, fun bad => absurd bad (by simp)⟩

/-- A visit of the timer keeps the estimates if the countdown is running or there
is a sample. -/
theorem Estimates.tick (h : Estimates rtts s)
    (inTime : s.windowOver env → s.minimumRttCaptured ≠ -1) : Estimates rtts (s.timerBbr env) := by
  by_cases ended : s.windowOver env
  · obtain ⟨minimum, copied | ⟨kept, _⟩⟩ := CtcpState.timerBbr_over ended
    · have some : rtts ≠ [] := fun empty => inTime ended (h.sentinel.mpr empty)
      obtain ⟨mem, least, _⟩ := h.least some
      refine ⟨⟨.inr (copied ▸ mem), fun _ => ?_⟩, h.nonneg, minimum ▸ h.sentinel⟩
      rw [minimum, copied]
      exact ⟨mem, least, Int.le_refl _⟩
    · exact h.congr minimum kept
  · obtain ⟨minimum, rtProp⟩ := CtcpState.timerBbr_running ended
    exact h.congr minimum rtProp

/-- A visit that ends the countdown without a sample breaks the estimates. -/
theorem Estimates.not_measured (h : Estimates rtts s) (ended : s.windowOver env)
    (none : s.minimumRttCaptured = -1) : ¬ Measured rtts (s.timerBbr env) := by
  obtain rfl := h.sentinel.mp none
  have initial : s.bbr.rtProp = 200 := h.rtProp.resolve_right (List.not_mem_nil)
  obtain ⟨_, copied | ⟨_, notLess⟩⟩ := CtcpState.timerBbr_over ended
  · intro real
    have := real.rtProp.resolve_right (List.not_mem_nil)
    omega
  · omega

end Step

/-! ## Runs -/

/-- The time in the array of an acknowledged segment is a reading of the
clock: the segment was sent. -/
def Sample.Stamped (env : Env) (s : CtcpState) : Sample → Prop
  | .acked b _ => ∃ k ≤ s.ticks, b.sentAt = env.clock k
  | _ => True

/-- No visit of the timer finds the countdown over before the first segment
is acknowledged. -/
def Sample.InTime (env : Env) (s : CtcpState) : Sample → Prop
  | .tick => s.windowOver env → s.minimumRttCaptured ≠ -1
  | _ => True

theorem estimates_step {samples : List Sample} {s t : CtcpState} {e : Sample}
    (clock : Monotone env.clock) (h : Estimates (measuredRtts samples) s)
    (hstep : SampleStep env s e t) (stamped : e.Stamped env s) (inTime : e.InTime env s) :
    Estimates (measuredRtts (samples ++ [e])) t := by
  rw [measuredRtts_snoc]
  cases hstep with
  | acked b =>
    obtain ⟨k, earlier, reading⟩ := stamped
    have nonneg : 0 ≤ s.rtt env b := by
      have := clock earlier
      rw [CtcpState.rtt, reading]
      omega
    exact h.acked b nonneg
  | tick =>
    rw [Sample.rtt?, Option.toList_none, List.append_nil]
    exact h.tick inTime
  | idle hidle =>
    rw [Sample.rtt?, Option.toList_none, List.append_nil]
    refine h.congr hidle.minimum ?_
    rw [hidle.bbr]

/-- **RTT estimates are measurements.** In every interleaving of acknowledged
segments, ticks and everything else on a clock that does not run backwards,
whose ticks find the countdown over only after a first segment was
acknowledged, `rt_prop` is 200 or an RTT measured, and after the first
acknowledged segment `minimum_rtt_captured` is the least RTT measured and
`rt_prop` not below it. The next event keeps this if and only if it is not a
tick that finds the countdown over with no segment acknowledged. -/
theorem rtt_estimates {block : Bbr} {config : CtcpConfig} {samples : List Sample} {s : CtcpState}
    (clock : Monotone env.clock)
    (h : Run (Guarded (SampleStep env) fun s e => e.Stamped env s ∧ e.InTime env s)
      (ctcpInit env block config) samples s) :
    Measured (measuredRtts samples) s ∧
    ∀ e t, SampleStep env s e t → e.Stamped env s →
      (Measured (measuredRtts (samples ++ [e])) t ↔ e.InTime env s) := by
  have inv : Estimates (measuredRtts samples) s := by
    refine Run.history (fun samples s => Estimates (measuredRtts samples) s)
      (estimates_init block config) (fun {samples t e u} _ ht hstep => ?_) h
    exact estimates_step clock ht hstep.1 hstep.2.1 hstep.2.2
  refine ⟨inv.toMeasured, fun e t hstep stamped => ⟨fun measured => ?_, fun inTime => ?_⟩⟩
  · cases hstep with
    | acked | idle => exact trivial
    | tick =>
      intro ended none
      refine inv.not_measured ended none ?_
      rwa [measuredRtts_snoc, Sample.rtt?, Option.toList_none, List.append_nil] at measured
  · exact (estimates_step clock inv hstep stamped inTime).toMeasured

/-- The first segment is acknowledged two seconds after it was sent. -/
theorem rtt_estimates_first :
    let env : Env := .plain .little
    let s := { CtcpState.fresh env with ticks := 2 }
    let b : Buf := { (CtcpState.fresh env).makeBuf env [97] 16 with sentAt := 1000, sent := 1 }
    Measured (measuredRtts [.idle, .acked b 2000]) (s.measure env b) ∧
    ∀ e t, SampleStep env (s.measure env b) e t → e.Stamped env (s.measure env b) →
      (Measured (measuredRtts ([.idle, .acked b 2000] ++ [e])) t ↔
        e.InTime env (s.measure env b)) := by
  intro env s b
  have clock : Monotone env.clock := by
    intro i j hij
    show (1000 * ((i : Int) + 1) : Int) ≤ 1000 * (j + 1)
    omega
  have waited : SampleStep env (.fresh env) .idle s := .idle ⟨rfl, rfl, rfl, rfl, rfl⟩
  have sent : Sample.Stamped env s (.acked b 2000) := ⟨0, by decide, rfl⟩
  have rtt : s.rtt env b = 2000 := by decide
  have ack : SampleStep env s (.acked b 2000) (s.measure env b) := rtt ▸ .acked s b
  exact rtt_estimates clock (.snoc (.single ⟨waited, trivial, trivial⟩) ⟨ack, sent, trivial⟩)

/-- Real clock readings do not fit the 32 bits of `last_ctcp_timer_call`, so
the first visit finds the countdown over, and `rt_prop` becomes -1. -/
theorem rt_prop_without_sample :
    let env : Env := { Env.plain .little with clock := fun k => 1700000000000 + k }
    let s := CtcpState.fresh env
    Monotone env.clock ∧ Run (SampleStep env) s [.tick] (s.timerBbr env) ∧
      (s.timerBbr env).bbr.rtProp = -1 ∧ ¬ Measured (measuredRtts [.tick]) (s.timerBbr env) := by
  intro env s
  have copied : (s.timerBbr env).bbr.rtProp = -1 := by decide +kernel
  refine ⟨fun i j hij => ?_, .single (.tick s), copied, fun measured => ?_⟩
  · show (1700000000000 + (i : Int) : Int) ≤ 1700000000000 + j
    omega
  · rcases measured.rtProp with initial | sample
    · rw [copied] at initial
      contradiction
    · exact List.not_mem_nil sample

end NetLabs.Ctcp
