/-
NetLabs.Ctcp.RttWindow — the ten-second window of the minimum RTT.

`ctcp_timer` counts `rtt_minimum_check_for_window_ms` down from 10000 by the
difference between the clock and `last_ctcp_timer_call`, and runs its block
when the countdown is below zero. `last_ctcp_timer_call` has 32 bits and the
clock 64, so a difference over a reading from `2 ^ 32` on is at least
`2 ^ 32`; 0 in it stands for no visit yet; and a countdown of exactly 0 is
neither counted down nor over.

`Window` follows the visits as they should be: when the window began, and the
first reading in it that is not zero. `InStep` says of a window and a reading
whether the visit does what it should (`visit_onTime`), and as long as every
visit does, `Counts` ties the two fields of the connection to the window
(`Counts.visit`). So a whole run keeps the window exactly if every reading is
in step (`rtt_window`).
-/
import NetLabs.Ctcp.RttEstimates
import NetLabs.Lib.Ledger

namespace NetLabs.Ctcp

open NetLabs.Lib

variable {env : Env}

/-! ## Visits -/

/-- Every reading of the clock that the visit takes is `now`. -/
def CtcpState.VisitedAt (env : Env) (s : CtcpState) (now : Int) : Prop :=
  ∀ k, s.ticks ≤ k → k < (s.timerBbr env).ticks → env.clock k = now

/-- A visit of `ctcp_timer` at a reading of the clock, with the reading and
whether its block ran, or anything that leaves the countdown alone. -/
inductive VisitStep (env : Env) : CtcpState → Option (Int × Bool) → CtcpState → Prop where
  | visit (s : CtcpState) (now : Int) (nonneg : 0 ≤ now) (steady : s.VisitedAt env now) :
      VisitStep env s (some (now, decide (s.windowOver env))) (s.timerBbr env)
  | other {s t : CtcpState} (lastCall : t.lastCtcpTimerCall = s.lastCtcpTimerCall)
      (countdown : t.bbr.rttMinimumCheckForWindowMs = s.bbr.rttMinimumCheckForWindowMs) :
      VisitStep env s none t

/-- The visits of a run. -/
def visits (steps : List (Option (Int × Bool))) : List (Int × Bool) := steps.filterMap id

/-- The reading at which the block last ran, or else that of the first
visit. -/
def lastRun (visits : List (Int × Bool)) : Option Int :=
  visits.foldl (fun since v => some (if v.2 then v.1 else since.getD v.1)) none

/-- The block runs on a visit exactly if ten seconds have elapsed since it
last ran. -/
def OnTime (before : List (Int × Bool)) (visit : Int × Bool) : Prop :=
  visit.2 = true ↔ ∃ since ∈ lastRun before, 10000 ≤ visit.1 - since

/-! ## The window as it should be -/

/-- A window that has begun. -/
structure Window where
  /-- the reading at which it began -/
  since : Int
  /-- its first reading that is not zero, if it has one -/
  counted : Int
  /-- the last reading -/
  last : Int

/-- The window after a visit. -/
def Window.next (now : Int) : Option Window → Window
  | none => ⟨now, now, now⟩
  | some w =>
      if 10000 ≤ now - w.since then ⟨now, now, now⟩
      else ⟨w.since, if w.counted = 0 then now else w.counted, now⟩

/-- The window after visits at these readings. -/
def window (readings : List Int) : Option Window :=
  readings.foldl (fun w now => some (Window.next now w)) none

/-- A reading on which the code keeps the window. -/
def InStep (now : Int) : Option Window → Prop
  | none => now < 4294967296
  | some w =>
      if 4294967296 ≤ w.last then 10000 ≤ now - w.since
      else if w.counted = 0 then now < 10000 ∨ 4294967296 ≤ now
      else now - w.since < 10000 ∨ 10000 < now - w.counted

instance (now : Int) (w : Option Window) : Decidable (InStep now w) := by
  cases w <;> unfold InStep <;> infer_instance

theorem lastRun_snoc (visits : List (Int × Bool)) (v : Int × Bool) :
    lastRun (visits ++ [v]) = some (if v.2 then v.1 else (lastRun visits).getD v.1) := by
  rw [lastRun, List.foldl_append]
  rfl

theorem window_snoc (readings : List Int) (now : Int) :
    window (readings ++ [now]) = some (Window.next now (window readings)) := by
  rw [window, List.foldl_append]
  rfl

/-! ## One visit -/

/-- The countdown of a visit at the reading `now`. -/
theorem countDown_steady {s : CtcpState} {now : Int}
    (steady : s.VisitedAt env now)
    (running : 0 < s.bbr.rttMinimumCheckForWindowMs) :
    (s.countDown env).bbr.rttMinimumCheckForWindowMs =
      s.bbr.rttMinimumCheckForWindowMs -
        (now - if s.lastCtcpTimerCall = 0 then now % 4294967296
          else s.lastCtcpTimerCall.toNat) ∧
    ((s.countDown env).lastCtcpTimerCall.toNat : Int) = now % 4294967296 := by
  have low : ((UInt32.ofInt now).toNat : Int) = now % 4294967296 := toNat_ofInt32 now
  have taken : (s.countDown env).ticks ≤ (s.timerBbr env).ticks := by
    rw [CtcpState.timerBbr_window]
    split
    · exact Nat.le_succ _
    · exact Nat.le_refl _
  rw [CtcpState.countDown] at taken ⊢
  by_cases unset : s.lastCtcpTimerCall = 0
  · simp only [unset, if_pos, gt_iff_lt, running] at taken ⊢
    rw [steady s.ticks (by omega) (by omega), steady (s.ticks + 1) (by omega) (by omega),
      steady (s.ticks + 1 + 1) (by omega) (by omega), low]
    exact ⟨rfl, rfl⟩
  · simp only [if_neg unset, gt_iff_lt, if_pos running] at taken ⊢
    rw [steady s.ticks (by omega) (by omega), steady (s.ticks + 1) (by omega) (by omega)]
    exact ⟨rfl, low⟩

theorem timerBbr_steady (s : CtcpState) :
    (s.timerBbr env).lastCtcpTimerCall = (s.countDown env).lastCtcpTimerCall ∧
    (s.timerBbr env).bbr.rttMinimumCheckForWindowMs =
      if s.windowOver env then 10000 else (s.countDown env).bbr.rttMinimumCheckForWindowMs := by
  rw [CtcpState.timerBbr_window]
  split <;> exact ⟨rfl, rfl⟩

/-- The countdown and the time of the last visit are those of the window. -/
def Counts (s : CtcpState) : Option Window → Prop
  | none => s.lastCtcpTimerCall = 0 ∧ s.bbr.rttMinimumCheckForWindowMs = 10000
  | some w =>
      0 ≤ w.since ∧ w.since ≤ w.counted ∧ w.counted ≤ w.last ∧ (w.counted = 0 → w.last = 0) ∧
      (s.lastCtcpTimerCall.toNat : Int) = w.last % 4294967296 ∧
      0 < s.bbr.rttMinimumCheckForWindowMs ∧ s.bbr.rttMinimumCheckForWindowMs ≤ 10000 ∧
      (w.last < 4294967296 → s.bbr.rttMinimumCheckForWindowMs = 10000 - (w.last - w.counted))

/-- The readings on which the code runs its block. -/
def RunsBlock (now : Int) : Option Window → Prop
  | none => 4294967296 ≤ now
  | some w =>
      4294967296 ≤ w.last ∨
        if w.counted = 0 then 4294967296 ≤ now else 10000 < now - w.counted

section Visit

variable {s : CtcpState} {w : Option Window} {now : Int}

theorem Counts.running (h : Counts s w) : 0 < s.bbr.rttMinimumCheckForWindowMs := by
  cases w with
  | none =>
    rw [h.2]
    decide
  | some w => exact h.2.2.2.2.2.1

theorem Counts.congr {t : CtcpState} (h : Counts s w)
    (lastCall : t.lastCtcpTimerCall = s.lastCtcpTimerCall)
    (countdown : t.bbr.rttMinimumCheckForWindowMs = s.bbr.rttMinimumCheckForWindowMs) :
    Counts t w := by
  cases w with
  | none => exact ⟨lastCall.trans h.1, countdown.trans h.2⟩
  | some w =>
    rw [Counts, lastCall, countdown]
    exact h

/-- A window begins. -/
theorem Counts.begin (nonneg : 0 ≤ now)
    (lastCall : (s.lastCtcpTimerCall.toNat : Int) = now % 4294967296)
    (countdown : s.bbr.rttMinimumCheckForWindowMs = 10000) : Counts s (some ⟨now, now, now⟩) := by
  have elapsed : s.bbr.rttMinimumCheckForWindowMs = 10000 - (now - now) := by omega
  exact ⟨nonneg, Int.le_refl _, Int.le_refl _, id, lastCall, by omega, by omega, fun _ => elapsed⟩

/-- When the block runs on a visit. -/
theorem Counts.windowOver_iff (h : Counts s w) (steady : s.VisitedAt env now)
    (forward : ∀ w' ∈ w, w'.last ≤ now) : s.windowOver env ↔ RunsBlock now w := by
  obtain ⟨countdown, _⟩ := countDown_steady steady h.running
  rw [CtcpState.windowOver, countdown]
  cases w with
  | none =>
    rw [h.1, h.2, if_pos rfl, RunsBlock]
    omega
  | some w =>
    obtain ⟨_, _, _, zero, last, _, _, exactly⟩ := h
    have later : w.last ≤ now := forward w rfl
    by_cases unset : s.lastCtcpTimerCall = 0
    · have start : (s.lastCtcpTimerCall.toNat : Int) = 0 := by
        rw [unset]
        rfl
      rw [if_pos unset, RunsBlock]
      split_ifs <;> omega
    · have start : s.lastCtcpTimerCall.toNat ≠ 0 := fun h => unset (UInt32.toNat_inj.mp h)
      rw [if_neg unset, RunsBlock]
      split_ifs <;> omega

/-- A visit does what it should exactly on a reading in step. -/
theorem Counts.onTime_iff (h : Counts s w) (steady : s.VisitedAt env now)
    (forward : ∀ w' ∈ w, w'.last ≤ now) :
    (s.windowOver env ↔ ∃ w' ∈ w, 10000 ≤ now - w'.since) ↔ InStep now w := by
  rw [h.windowOver_iff steady forward]
  cases w with
  | none =>
    simp only [RunsBlock, InStep, Option.not_mem_none, false_and, exists_false, iff_false, not_le]
  | some w =>
    obtain ⟨nonneg, begun, counted, zero, _⟩ := h
    have later : w.last ≤ now := forward w rfl
    simp only [RunsBlock, InStep, Option.mem_some_iff, exists_eq_left']
    split_ifs <;> omega

/-- A visit on a reading in step keeps the two fields in step. -/
theorem Counts.visit (h : Counts s w) (steady : s.VisitedAt env now)
    (nonneg : 0 ≤ now) (forward : ∀ w' ∈ w, w'.last ≤ now) (inStep : InStep now w) :
    Counts (s.timerBbr env) (some (Window.next now w)) := by
  have onTime := (h.onTime_iff steady forward).mpr inStep
  obtain ⟨countdown, lastCall⟩ := countDown_steady steady h.running
  obtain ⟨call, reset⟩ : _ ∧ _ := timerBbr_steady s
  rw [countdown] at reset
  rw [← call] at lastCall
  cases w with
  | none =>
    have near : now < 4294967296 := inStep
    have running : ¬ s.windowOver env := fun ended => by simpa using onTime.mp ended
    rw [if_neg running, h.1, h.2, if_pos rfl] at reset
    exact .begin nonneg lastCall (by omega)
  | some w =>
    have later : w.last ≤ now := forward w rfl
    obtain ⟨start, begun, counted, zero, last, positive, few, exactly⟩ := h
    simp only [Option.mem_some_iff, exists_eq_left'] at onTime
    by_cases elapsed : 10000 ≤ now - w.since
    · rw [if_pos (onTime.mpr elapsed)] at reset
      rw [Window.next, if_pos elapsed]
      exact .begin nonneg lastCall reset
    · rw [if_neg fun ended => elapsed (onTime.mp ended)] at reset
      rw [Window.next, if_neg elapsed]
      have near : w.last < 4294967296 := by
        by_contra far
        rw [InStep, if_pos (not_lt.mp far)] at inStep
        exact elapsed inStep
      have low : (s.lastCtcpTimerCall.toNat : Int) = w.last := by omega
      by_cases unset : w.counted = 0
      · -- only zeros so far: the countdown starts with this reading
        have none : s.lastCtcpTimerCall = 0 := by
          rw [zero unset] at low
          exact UInt32.toNat_inj.mp (Int.ofNat_inj.mp low)
        rw [if_pos none] at reset
        rw [if_pos unset]
        exact ⟨start, by dsimp only; omega, Int.le_refl _, id, lastCall, by omega, by omega,
          fun _ => by dsimp only; omega⟩
      · have some : s.lastCtcpTimerCall ≠ 0 := by
          intro none
          rw [none] at low
          have : (0 : Int) = w.last := low
          omega
        rw [if_neg some] at reset
        rw [if_neg unset]
        exact ⟨start, begun, by dsimp only; omega, fun none => absurd none unset, lastCall,
          by omega, by omega, fun _ => by dsimp only; omega⟩

end Visit

/-! ## Runs -/

/-- The readings at which the timer visited the connection. -/
def readings (steps : List (Option (Int × Bool))) : List Int := (visits steps).map Prod.fst

theorem visits_visit (steps : List (Option (Int × Bool))) (v : Int × Bool) :
    visits (steps ++ [some v]) = visits steps ++ [v] := by
  rw [visits, List.filterMap_append]
  rfl

theorem visits_other (steps : List (Option (Int × Bool))) :
    visits (steps ++ [none]) = visits steps := by
  rw [visits, List.filterMap_append]
  exact List.append_nil _

/-- The last reading of the window is the last one. -/
theorem window_last (rs : List Int) : (window rs).map Window.last = rs.getLast? := by
  rcases List.eq_nil_or_concat' rs with rfl | ⟨init, now, rfl⟩
  · rfl
  · rw [window_snoc, List.getLast?_concat, Option.map_some]
    cases window init with
    | none => rfl
    | some w =>
      rw [Window.next]
      split <;> rfl

/-- Each visit does what it should. -/
def WindowKept (visits : List (Int × Bool)) : Prop := Justified OnTime visits

/-- Each reading is in step with the window of the readings before it. -/
def AllInStep (rs : List Int) : Prop := Justified (fun before now => InStep now (window before)) rs

/-- What a run keeps: it does what it should as long as the readings are in
step, and then the connection is in step with the window. -/
structure Kept (visits : List (Int × Bool)) (s : CtcpState) : Prop where
  iff : WindowKept visits ↔ AllInStep (visits.map Prod.fst)
  counts : AllInStep (visits.map Prod.fst) → Counts s (window (visits.map Prod.fst))
  lastRun : AllInStep (visits.map Prod.fst) →
    lastRun visits = (window (visits.map Prod.fst)).map Window.since

theorem Kept.visit {visits : List (Int × Bool)} {s : CtcpState} {now : Int} (h : Kept visits s)
    (nonneg : 0 ≤ now) (steady : s.VisitedAt env now)
    (forward : ∀ last ∈ (visits.map Prod.fst).getLast?, last ≤ now) :
    Kept (visits ++ [(now, decide (s.windowOver env))]) (s.timerBbr env) := by
  have later : ∀ w ∈ window (visits.map Prod.fst), w.last ≤ now := by
    intro w hw
    refine forward w.last ?_
    rw [← window_last, hw]
    rfl
  have split : AllInStep ((visits ++ [(now, decide (s.windowOver env))]).map Prod.fst) ↔
      AllInStep (visits.map Prod.fst) ∧ InStep now (window (visits.map Prod.fst)) := by
    rw [List.map_append]
    exact justified_snoc
  -- `OnTime` of this visit, in terms of the window
  have expected : AllInStep (visits.map Prod.fst) →
      (OnTime visits (now, decide (s.windowOver env)) ↔
        (s.windowOver env ↔ ∃ w ∈ window (visits.map Prod.fst), 10000 ≤ now - w.since)) := by
    intro inStep
    rw [OnTime, h.lastRun inStep, decide_eq_true_eq]
    simp only [Option.mem_map, exists_exists_and_eq_and]
  constructor
  case iff =>
    have first : WindowKept (visits ++ [(now, decide (s.windowOver env))]) ↔ _ := justified_snoc
    rw [split, first]
    refine (and_congr_left' h.iff).trans (and_congr_right fun inStep => ?_)
    exact (expected inStep).trans ((h.counts inStep).onTime_iff steady later)
  case counts =>
    intro all
    obtain ⟨inStep, new⟩ := split.mp all
    rw [List.map_append, List.map_singleton, window_snoc]
    exact (h.counts inStep).visit steady nonneg later new
  case lastRun =>
    intro all
    obtain ⟨inStep, new⟩ := split.mp all
    have onTime := ((h.counts inStep).onTime_iff steady later).mpr new
    rw [List.map_append, List.map_singleton, window_snoc, lastRun_snoc, h.lastRun inStep]
    cases hw : window (visits.map Prod.fst) with
    | none => simp [Window.next]
    | some w =>
      simp only [hw, Option.mem_some_iff, exists_eq_left'] at onTime
      by_cases elapsed : 10000 ≤ now - w.since
      · simp [Window.next, elapsed, onTime]
      · simp [Window.next, elapsed, onTime]

/-- **The window of the minimum RTT.** On a clock that does not run
backwards, each visit of the timer in a run runs its block exactly if ten
seconds have elapsed since it last ran, if and only if each visit comes at a
reading in step with the visits before it. -/
theorem rtt_window {block : Bbr} {config : CtcpConfig} {steps : List (Option (Int × Bool))}
    {s : CtcpState} (h : Run (VisitStep env) (ctcpInit env block config) steps s)
    (forward : (readings steps).IsChain (· ≤ ·)) :
    WindowKept (visits steps) ↔ AllInStep (readings steps) := by
  have kept : (readings steps).IsChain (· ≤ ·) → Kept (visits steps) s := by
    refine Run.history (fun steps s => (readings steps).IsChain (· ≤ ·) → Kept (visits steps) s)
      (fun _ => ?_) (fun {steps t e u} _ ih hstep chain => ?_) h
    · exact ⟨⟨fun _ => justified_nil, fun _ => justified_nil⟩, fun _ => ⟨rfl, rfl⟩, fun _ => rfl⟩
    · cases hstep with
      | visit now nonneg steady =>
        rw [readings, visits_visit, List.map_append, List.isChain_append] at chain
        rw [visits_visit]
        exact (ih chain.1).visit nonneg steady fun last hlast => chain.2.2 last hlast now rfl
      | other lastCall countdown =>
        rw [readings, visits_other] at chain
        rw [visits_other]
        have kept := ih chain
        exact ⟨kept.iff, fun all => (kept.counts all).congr lastCall countdown, kept.lastRun⟩
  exact (kept forward).iff

/-- Two visits, the second after eleven seconds. -/
theorem rtt_window_eleven_seconds :
    WindowKept (visits [some (5000, false), some (16000, true)]) ↔
      AllInStep (readings [some (5000, false), some (16000, true)]) := by
  let env : Env := { Env.plain .little with clock := fun k => if k < 3 then 5000 else 16000 }
  have first : CtcpState.VisitedAt env (.fresh env) 5000 := fun k _ few => if_pos few
  have second : ((CtcpState.fresh env).timerBbr env).VisitedAt env 16000 :=
    fun k later _ => if_neg (not_lt.mpr later)
  have run : Run (VisitStep env) (.fresh env) [some (5000, false), some (16000, true)] _ :=
    .snoc (.single (.visit _ 5000 (by decide) first)) (.visit _ 16000 (by decide) second)
  exact rtt_window run (by decide)

/-- The first visit at a time of day in milliseconds runs the block. -/
theorem block_runs_at_once :
    let env : Env := { Env.plain .little with clock := fun _ => 1700000000000 }
    let s := CtcpState.fresh env
    Run (VisitStep env) s [some (1700000000000, true)] (s.timerBbr env) ∧
      ¬ WindowKept (visits [some (1700000000000, true)]) := by
  intro env s
  refine ⟨.single (.visit s 1700000000000 (by decide) fun _ _ _ => rfl), fun kept => ?_⟩
  obtain ⟨since, hsince, _⟩ := (kept [] _ [] rfl).mp rfl
  exact Option.not_mem_none since hsince

/-! ## The connection is such a machine -/

/-- A run of the connection each of whose visits takes the same reading
throughout is a run of visits. -/
theorem run_visits {s u : CtcpState} {ops : List Op}
    (h : Run (Guarded (Step env) fun s op => op = .timer → ∃ now, 0 ≤ now ∧ s.VisitedAt env now)
      s ops u) : ∃ steps, Run (VisitStep env) s steps u := by
  let R (s t : CtcpState) : Prop := t.lastCtcpTimerCall = s.lastCtcpTimerCall ∧
    t.bbr.rttMinimumCheckForWindowMs = s.bbr.rttMinimumCheckForWindowMs
  have trans : ∀ {s t u}, R s t → R t u → R s u :=
    fun hs ht => ⟨ht.1.trans hs.1, ht.2.trans hs.2⟩
  have idle : ∀ {s t}, Idle s t → R s t := fun h => ⟨h.lastCall, by rw [h.bbr]⟩
  have measured : ∀ s b, R s (s.measure env b) := by
    intro s b
    rw [CtcpState.measure_sampledBbr]
    exact ⟨rfl, (Bbr.onAck_keeps _ _ _).2.2⟩
  have other : ∀ {s t}, R s t → ∃ steps, Run (VisitStep env) s steps t :=
    fun hst => ⟨_, .single (.other hst.1 hst.2)⟩
  refine Run.invariant (fun t => ∃ steps, Run (VisitStep env) s steps t) ⟨[], .nil⟩
    (fun {t op u} ht hstep => ?_) h
  obtain ⟨⟨_, rfl⟩, guard⟩ := hstep
  obtain ⟨before, ht⟩ := ht
  have call : ∃ steps, Run (VisitStep env) t steps (t.apply env op) := by
    cases op with
    | send data flags => exact other (idle (sendSegment_idle t data.1 flags true))
    | control flags => exact other (idle (sendSegment_idle t [] flags false))
    | receive seg => exact other (receive_relation R trans idle measured t seg)
    | timer =>
      obtain ⟨now, nonneg, steady⟩ := guard rfl
      obtain ⟨steps, rest⟩ := other (idle (retransmitLoop_idle env [] _ (t.timerBbr env)))
      exact ⟨_, (Run.single (.visit t now nonneg steady)).trans rest⟩
  obtain ⟨new, hu⟩ := call
  exact ⟨_, ht.trans hu⟩

end NetLabs.Ctcp
