/-
NetLabs.Ctcp.TimerSpacing — when `do_loop` of `lab3/ctcp_sys_internal.c` calls
`ctcp_timer`.

`need_timer_in` of `lab3/ctcp_sys_internal.h` says how many milliseconds of the
interval are left. Before it looks at the nanoseconds it compares the whole
seconds, and if these differ by more than the interval has, nothing is left.
That is a matter of where a second begins: two instants a few milliseconds
apart may lie in different seconds. `needTimerIn_accurate_iff` says when the
result is right up to a millisecond, and `spaced_iff` says the same of a run:
its calls of `ctcp_timer` keep their distance if and only if every check finds
a result that is right.

The instants of the checks are inputs. Those at which `poll` is told how long
to wait are left out, since what it reports is arbitrary.
-/
import NetLabs.Ctcp.MainLoop

namespace NetLabs.Ctcp

open NetLabs.Lib

/-! ## The clock -/

/-- `struct timeval`, as `gettimeofday` fills it. -/
structure Timeval where
  sec : Int
  usec : Nat
  usec_lt : usec < 1000000
  deriving DecidableEq, Repr

/-- `struct timespec` -/
structure Timespec where
  sec : Int
  nsec : Nat
  nsec_lt : nsec < 1000000000
  deriving DecidableEq, Repr

/-- `get_time(ts)`, when `gettimeofday` stores `tv`. -/
def getTime (tv : Timeval) : Timespec where
  sec := tv.sec
  nsec := tv.usec * 1000
  nsec_lt := by
    have := tv.usec_lt
    omega

/-- `need_timer_in(last, interval)` at the instant `now`. -/
def needTimerIn (now : Timeval) (last : Timespec) (interval : Int) : Int :=
  let ts := getTime now
  let elapsed := ts.sec - last.sec
  if elapsed > interval.tdiv 1000 then 0
  else
    let elapsed := elapsed * 1000 + ((ts.nsec : Int) - last.nsec).tdiv 1000000
    if elapsed ≥ interval then 0 else interval - elapsed

/-- An instant in nanoseconds. -/
def Timespec.nanos (t : Timespec) : Int := t.sec * 1000000000 + t.nsec

/-- The nanoseconds that have passed. -/
def elapsed (last : Timespec) (now : Timeval) : Int := (getTime now).nanos - last.nanos

/-- The result is what is left of the interval, up to a millisecond. -/
def Accurate (last : Timespec) (now : Timeval) (interval : Int) : Prop :=
  needTimerIn now last interval * 1000000 ≤
      max 0 (interval * 1000000 - elapsed last now) + 1000000 ∧
    max 0 (interval * 1000000 - elapsed last now) ≤
      needTimerIn now last interval * 1000000 + 1000000

/-- The seconds do not differ by more than the interval has, or they do so
rightly. -/
def NotCutShort (last : Timespec) (now : Timeval) (interval : Int) : Prop :=
  now.sec - last.sec ≤ interval / 1000 ∨ (interval - 1) * 1000000 ≤ elapsed last now

/-! ## One check -/

section

variable {last : Timespec} {now : Timeval} {interval : Int}

/-- A division that truncates is off by less than one. -/
theorem tdiv_bounds (n : Int) :
    n - 1000000 < n.tdiv 1000000 * 1000000 ∧ n.tdiv 1000000 * 1000000 < n + 1000000 := by
  have parts := Int.mul_tdiv_add_tmod n 1000000
  have low := Int.lt_tmod_of_pos n (show (0 : Int) < 1000000 by decide)
  have high := Int.tmod_lt_of_pos n (show (0 : Int) < 1000000 by decide)
  omega

/-- Within the seconds of the interval the result is right. -/
theorem needTimerIn_bounds (pos : 0 < interval) (seconds : now.sec - last.sec ≤ interval / 1000) :
    ∃ millis, elapsed last now - 1000000 < millis * 1000000 ∧
      millis * 1000000 < elapsed last now + 1000000 ∧
      needTimerIn now last interval = max 0 (interval - millis) := by
  have bounds := tdiv_bounds (((getTime now).nsec : Int) - last.nsec)
  refine ⟨(now.sec - last.sec) * 1000 +
    (((getTime now).nsec : Int) - last.nsec).tdiv 1000000, ?_, ?_, ?_⟩
  · simp only [elapsed, Timespec.nanos, getTime] at bounds ⊢
    omega
  · simp only [elapsed, Timespec.nanos, getTime] at bounds ⊢
    omega
  · have whole : interval.tdiv 1000 = interval / 1000 :=
      Int.tdiv_eq_ediv_of_nonneg (Int.le_of_lt pos)
    simp only [needTimerIn, whole]
    rw [if_neg (show ¬ (getTime now).sec - last.sec > interval / 1000 from Int.not_lt.mpr seconds)]
    show (if (now.sec - last.sec) * 1000 + _ ≥ interval then (0 : Int) else _) = _
    split
    · omega
    · show interval - ((now.sec - last.sec) * 1000 + _) = _
      omega

/-- Beyond them it is 0. -/
theorem needTimerIn_shortcut (pos : 0 < interval)
    (seconds : ¬ now.sec - last.sec ≤ interval / 1000) : needTimerIn now last interval = 0 := by
  have whole : interval.tdiv 1000 = interval / 1000 :=
    Int.tdiv_eq_ediv_of_nonneg (Int.le_of_lt pos)
  simp only [needTimerIn, whole]
  exact if_pos (Int.not_le.mp seconds)

theorem needTimerIn_accurate_iff (pos : 0 < interval) :
    Accurate last now interval ↔ NotCutShort last now interval := by
  unfold Accurate NotCutShort
  by_cases seconds : now.sec - last.sec ≤ interval / 1000
  · obtain ⟨millis, low, high, result⟩ := needTimerIn_bounds pos seconds
    refine iff_of_true ?_ (.inl seconds)
    rw [result]
    omega
  · rw [needTimerIn_shortcut pos seconds]
    omega

/-- Where the interval is over, a result that is right has seen it pass. -/
theorem fires_iff (pos : 0 < interval) (fires : needTimerIn now last interval = 0) :
    NotCutShort last now interval ↔ (interval - 1) * 1000000 ≤ elapsed last now := by
  refine ⟨fun notCutShort => ?_, .inr⟩
  rcases notCutShort with seconds | passed
  · obtain ⟨millis, low, high, result⟩ := needTimerIn_bounds pos seconds
    omega
  · exact passed

/-- Where something is left, it is right. -/
theorem notCutShort_of_waits (pos : 0 < interval) (waits : needTimerIn now last interval ≠ 0) :
    NotCutShort last now interval := by
  by_contra late
  exact waits (needTimerIn_shortcut pos fun seconds => late (.inl seconds))

/-- From the beginning of a second nothing goes wrong. -/
theorem notCutShort_of_whole (whole : last.nsec = 0) :
    NotCutShort last now interval := by
  by_cases seconds : now.sec - last.sec ≤ interval / 1000
  · exact .inl seconds
  · refine .inr ?_
    simp only [elapsed, Timespec.nanos, getTime, whole]
    omega

end

/-! ## The loop -/

/-- A call of `ctcp_timer`: the instant of the check before it, and the one
that is stored in `last_timeout` after it. -/
structure Firing where
  checked : Timeval
  finished : Timeval
  deriving DecidableEq, Repr

/-- The variables of `do_loop`, and for the statements the calls of
`ctcp_timer` and all checks so far, each check with `last_timeout`. -/
structure Timed where
  loop : Loop
  /-- `last_timeout` -/
  lastTimeout : Timespec
  firings : List Firing
  checks : List (Timespec × Timeval)

/-- `TIMER_INTERVAL` -/
def timerInterval : Int := 40

/-- What an iteration finds, with the instants at which the clock is read. -/
structure Iteration where
  polled : Polled
  /-- "Check if timer is up." -/
  checked : Timeval
  /-- after `ctcp_timer()` -/
  finished : Timeval

namespace Host

variable (h : Host)

/-- An iteration of `do_loop()`; `interval` is `ctcp_cfg->timer`. -/
def timedLoop (interval : Int) (t : Timed) (i : Iteration) : Except Halt Timed := do
  let fires := needTimerIn i.checked t.lastTimeout interval = 0
  let loop ← h.doLoop t.loop { i.polled with timer := decide fires }
  return {
    loop
    lastTimeout := if fires then getTime i.finished else t.lastTimeout
    firings := if fires then t.firings ++ [⟨i.checked, i.finished⟩] else t.firings
    checks := t.checks ++ [(t.lastTimeout, i.checked)] }

/-- `last_timeout` is a static variable. -/
def timedStart (conn : Conn) (config : CtcpConfig) : Timed where
  loop := h.start conn config
  lastTimeout := ⟨0, 0, by decide⟩
  firings := []
  checks := []

end Host

/-- The clock does not go back. -/
def Clocked (is : List Iteration) : Prop :=
  (∀ i ∈ is, (getTime i.checked).nanos ≤ (getTime i.finished).nanos) ∧
    is.Pairwise fun i j => (getTime i.finished).nanos ≤ (getTime j.checked).nanos

/-- Of any two calls of `ctcp_timer` the second one is made no earlier than an
interval after the end of the first one, less a millisecond. -/
def Spaced (interval : Int) (firings : List Firing) : Prop :=
  firings.Pairwise fun f g => (interval - 1) * 1000000 ≤ elapsed (getTime f.finished) g.checked

/-! ## Runs -/

/-- What a run has left behind: `last_timeout` is the end of the last call of
`ctcp_timer`, and every call happened in an iteration. -/
structure TimerKept (interval : Int) (is : List Iteration) (t : Timed) : Prop where
  last : t.firings = [] ∧ t.lastTimeout.nsec = 0 ∨
    ∃ f ∈ t.firings, t.lastTimeout = getTime f.finished ∧
      ∀ g ∈ t.firings, (getTime g.finished).nanos ≤ (getTime f.finished).nanos
  made : ∀ f ∈ t.firings, ∃ i ∈ is, f.finished = i.finished
  spaced : Spaced interval t.firings ↔ ∀ c ∈ t.checks, NotCutShort c.1 c.2 interval

section

variable {h : Host} {interval : Int} {is : List Iteration} {i : Iteration} {t u : Timed}

theorem timedLoop_eq (step : h.timedLoop interval t i = .ok u) :
    u.checks = t.checks ++ [(t.lastTimeout, i.checked)] ∧
      (needTimerIn i.checked t.lastTimeout interval = 0 →
        u.lastTimeout = getTime i.finished ∧
          u.firings = t.firings ++ [⟨i.checked, i.finished⟩]) ∧
      (needTimerIn i.checked t.lastTimeout interval ≠ 0 →
        u.lastTimeout = t.lastTimeout ∧ u.firings = t.firings) := by
  obtain ⟨loop, -, rest⟩ := ok_of_bind step
  obtain rfl := Except.ok.inj rest
  exact ⟨rfl, fun fires => ⟨if_pos fires, if_pos fires⟩,
    fun waits => ⟨if_neg waits, if_neg waits⟩⟩

/-- A call of `ctcp_timer` is far enough from all calls before it if and only
if it is far enough from the last one. -/
theorem TimerKept.far_iff (pos : 0 < interval) (kept : TimerKept interval is t) {now : Timeval}
    (fires : needTimerIn now t.lastTimeout interval = 0) :
    NotCutShort t.lastTimeout now interval ↔
      ∀ f ∈ t.firings, (interval - 1) * 1000000 ≤ elapsed (getTime f.finished) now := by
  rcases kept.last with ⟨none, whole⟩ | ⟨f, mem, last, latest⟩
  · rw [none]
    exact iff_of_true (notCutShort_of_whole whole) (List.forall_mem_nil _)
  · rw [fires_iff pos fires, last]
    constructor
    · intro far g hg
      have earlier := latest g hg
      unfold elapsed at far ⊢
      omega
    · intro far
      exact far f mem

theorem TimerKept.step (pos : 0 < interval) (kept : TimerKept interval is t)
    (order : Clocked (is ++ [i])) (step : h.timedLoop interval t i = .ok u) :
    TimerKept interval (is ++ [i]) u := by
  obtain ⟨checks, fired, waited⟩ := timedLoop_eq step
  have all : (∀ c ∈ u.checks, NotCutShort c.1 c.2 interval) ↔
      (∀ c ∈ t.checks, NotCutShort c.1 c.2 interval) ∧
        NotCutShort t.lastTimeout i.checked interval := by
    rw [checks, List.forall_mem_append, List.forall_mem_singleton]
  by_cases fires : needTimerIn i.checked t.lastTimeout interval = 0
  · obtain ⟨last, firings⟩ := fired fires
    constructor
    · refine .inr ⟨⟨i.checked, i.finished⟩, ?_, last, fun g hg => ?_⟩
      · rw [firings]
        exact List.mem_append_right _ (List.mem_singleton_self _)
      · rw [firings, List.mem_append, List.mem_singleton] at hg
        rcases hg with old | rfl
        · obtain ⟨j, hj, same⟩ := kept.made g old
          rw [same]
          have before := (List.pairwise_append.mp order.2).2.2 j hj i (List.mem_singleton_self i)
          have during := order.1 i (List.mem_append_right _ (List.mem_singleton_self i))
          exact before.trans during
        · exact le_rfl
    · intro f hf
      rw [firings, List.mem_append, List.mem_singleton] at hf
      rcases hf with old | rfl
      · obtain ⟨j, hj, same⟩ := kept.made f old
        exact ⟨j, List.mem_append_left _ hj, same⟩
      · exact ⟨i, List.mem_append_right _ (List.mem_singleton_self i), rfl⟩
    · rw [all, ← kept.spaced, kept.far_iff pos fires, firings, Spaced, List.pairwise_append]
      simp [Spaced]
  · obtain ⟨last, firings⟩ := waited fires
    refine ⟨?_, ?_, ?_⟩
    · rw [last, firings]
      exact kept.last
    · rw [firings]
      intro f hf
      obtain ⟨j, hj, same⟩ := kept.made f hf
      exact ⟨j, List.mem_append_left _ hj, same⟩
    · rw [all, ← kept.spaced, firings, and_iff_left (notCutShort_of_waits pos fires)]

/-- The calls of `ctcp_timer` of a run keep their distance if and only if no
check is cut short. -/
theorem spaced_iff (pos : 0 < interval) {conn : Conn} {config : CtcpConfig} (order : Clocked is)
    (run : Run (fun t i u => h.timedLoop interval t i = .ok u) (h.timedStart conn config) is t) :
    Spaced interval t.firings ↔ ∀ c ∈ t.checks, NotCutShort c.1 c.2 interval := by
  have kept : Clocked is → TimerKept interval is t := by
    refine Run.history (fun is t => Clocked is → TimerKept interval is t) ?_ ?_ run
    · intro _
      exact ⟨.inl ⟨rfl, rfl⟩, List.forall_mem_nil _,
        iff_of_true List.Pairwise.nil (List.forall_mem_nil _)⟩
    · intro is t i u _ kept step order
      have before : Clocked is :=
        ⟨fun j hj => order.1 j (List.mem_append_left _ hj),
          (List.pairwise_append.mp order.2).1⟩
      exact (kept before).step pos order step
  exact (kept order).spaced

/-- A result is right up to a millisecond if and only if the whole seconds do
not cut it short, and the calls of `ctcp_timer` of a run keep their distance if
and only if this holds of all its checks. -/
theorem timer_spacing_iff (pos : 0 < interval) :
    (∀ (last : Timespec) (now : Timeval), last.nanos ≤ (getTime now).nanos →
      (Accurate last now interval ↔ NotCutShort last now interval)) ∧
    ∀ (h : Host) (conn : Conn) (config : CtcpConfig) (is : List Iteration) (t : Timed),
      Clocked is →
      Run (fun t i u => h.timedLoop interval t i = .ok u) (h.timedStart conn config) is t →
      (Spaced interval t.firings ↔ ∀ c ∈ t.checks, NotCutShort c.1 c.2 interval) :=
  ⟨fun _ _ _ => needTimerIn_accurate_iff pos, fun _ _ _ _ _ order run => spaced_iff pos order run⟩

end

/-! ## Two calls -/

/-- An iteration with nothing to do. -/
def idleAt (now : Timeval) : Iteration := ⟨.idle, now, now⟩

/-- Nothing happens but that time passes, and the timer is up twice. -/
theorem exists_idle_run {a b : Timeval}
    (result : ([idleAt a, idleAt b].foldlM ((Host.plain true).timedLoop timerInterval)
      ((Host.plain true).timedStart ⟨0, 0, 0, 0⟩ ⟨1440, 200⟩)).map Timed.firings =
        .ok [⟨a, a⟩, ⟨b, b⟩]) :
    ∃ t : Timed, Run (fun t i u => (Host.plain true).timedLoop timerInterval t i = .ok u)
        ((Host.plain true).timedStart ⟨0, 0, 0, 0⟩ ⟨1440, 200⟩) [idleAt a, idleAt b] t ∧
      t.firings = [⟨a, a⟩, ⟨b, b⟩] := by
  cases run : [idleAt a, idleAt b].foldlM ((Host.plain true).timedLoop timerInterval)
      ((Host.plain true).timedStart ⟨0, 0, 0, 0⟩ ⟨1440, 200⟩) with
  | error e =>
    rw [run] at result
    cases result
  | ok t =>
    rw [run] at result
    exact ⟨t, run_foldlM_ok run, Except.ok.inj result⟩

theorem clocked_idle {a b : Timeval} (later : (getTime a).nanos ≤ (getTime b).nanos) :
    Clocked [idleAt a, idleAt b] := by
  constructor
  · intro i hi
    rcases List.mem_pair.mp hi with rfl | rfl <;> exact le_rfl
  · exact List.pairwise_pair.mpr later

/-- Fifty milliseconds within a second. -/
theorem timer_spacing_iff_fifty :
    (Accurate ⟨1700000000, 100000000, by decide⟩ ⟨1700000000, 150000, by decide⟩ timerInterval ↔
      NotCutShort ⟨1700000000, 100000000, by decide⟩ ⟨1700000000, 150000, by decide⟩
        timerInterval) ∧
    ∃ t : Timed, t.firings = [⟨⟨1700000000, 100000, by decide⟩, ⟨1700000000, 100000, by decide⟩⟩,
        ⟨⟨1700000000, 150000, by decide⟩, ⟨1700000000, 150000, by decide⟩⟩] ∧
      (Spaced timerInterval t.firings ↔ ∀ c ∈ t.checks, NotCutShort c.1 c.2 timerInterval) := by
  obtain ⟨t, run, firings⟩ := exists_idle_run (a := ⟨1700000000, 100000, by decide⟩)
    (b := ⟨1700000000, 150000, by decide⟩) (by decide +kernel)
  have spacing := timer_spacing_iff (show 0 < timerInterval by decide)
  exact ⟨spacing.1 _ _ (by decide), t, firings,
    spacing.2 _ _ _ _ t (clocked_idle (by decide)) run⟩

/-- Ten milliseconds with the beginning of a second among them: nothing is left
of the interval, and `ctcp_timer` is called again. -/
theorem timer_fires_after_ten_milliseconds :
    ¬ Accurate ⟨1700000000, 990000000, by decide⟩ ⟨1700000001, 0, by decide⟩ timerInterval ∧
    ∃ is t, Clocked is ∧
      Run (fun t i u => (Host.plain true).timedLoop timerInterval t i = .ok u)
        ((Host.plain true).timedStart ⟨0, 0, 0, 0⟩ ⟨1440, 200⟩) is t ∧
      ¬ Spaced timerInterval t.firings := by
  constructor
  · rw [needTimerIn_accurate_iff (by decide)]
    rintro (seconds | passed)
    · exact absurd seconds (by decide)
    · exact absurd passed (by decide)
  · obtain ⟨t, run, firings⟩ := exists_idle_run (a := ⟨1700000000, 990000, by decide⟩)
      (b := ⟨1700000001, 0, by decide⟩) (by decide +kernel)
    refine ⟨_, t, clocked_idle (by decide), run, fun spaced => ?_⟩
    rw [firings] at spaced
    exact absurd (List.pairwise_pair.mp spaced) (by decide)

end NetLabs.Ctcp
