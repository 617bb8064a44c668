/-
NetLabs.Ctcp.AckTurns — the ACK loop of `ctcp_receive`, turn by turn.

A turn takes the front segment off `unacknowledged_segments`. If segments are
pending it then fills the window from them, and either leaves `ctcp_receive`
by one of two `return`s or transmits what is not sent yet (`LeavesAt`,
`after`). `ackLoop_rec` is induction along the turns: what holds where the
loop stops, and where a turn leaves, and is kept backwards along every other
turn, holds of the whole loop.

With it the loop says what it removes (`ackLoop_segments`), what it adds to the
trace (`ackLoop_trace`), and when it does not come to its end
(`ackLoop_leaves_iff`).
-/
import NetLabs.Ctcp.UninitialisedMemory

namespace NetLabs.Ctcp

open NetLabs.Lib

variable {env : Env}

/-! ## A turn -/

/-- A turn of the ACK loop: the state it starts in, and the front segment,
which it removes. -/
abbrev Turn : Type := CtcpState × Buf

namespace CtcpState

/-- `state->inflight_data >= bdp && bdp!=0`. -/
def IsFull (env : Env) (s : CtcpState) : Prop :=
  s.inflightData ≥ UInt32.ofInt (s.bdp env) ∧ s.bdp env ≠ 0

/-- `(ll_length(state->output_pending_segments)== 0) && (can_send_how_much ==0)`. -/
def IsDrained (s : CtcpState) : Prop :=
  s.outputPendingSegments = [] ∧ s.slidingWindowSizeBytes.toUInt32 - s.inflightData = 0

end CtcpState

instance (env : Env) (s : CtcpState) : Decidable (s.IsFull env) :=
  inferInstanceAs (Decidable (_ ∧ _))

instance (s : CtcpState) : Decidable s.IsDrained := inferInstanceAs (Decidable (_ ∧ _))

namespace Turn

/-- The state once the segment is removed. -/
def removed (env : Env) (turn : Turn) : CtcpState :=
  (turn.1.measure env turn.2).removeFront turn.2 turn.1.unacknowledgedSegments.tail

/-- The state once the window is filled from the pending segments. -/
def filled (env : Env) (turn : Turn) : CtcpState := (turn.removed env).admitPending

/-- The turn leaves `ctcp_receive`: segments were pending, and either
`inflight_data` is at `bdp`, or nothing is pending any more and everything
admitted is in flight. -/
def LeavesAt (env : Env) (turn : Turn) : Prop :=
  (turn.removed env).outputPendingSegments ≠ [] ∧
    ((turn.filled env).IsFull env ∨ (turn.filled env).IsDrained)

instance (env : Env) (turn : Turn) : Decidable (turn.LeavesAt env) :=
  inferInstanceAs (Decidable (_ ∧ _))

/-- The state after the turn. -/
def after (env : Env) (turn : Turn) : CtcpState :=
  if (turn.removed env).outputPendingSegments = [] then turn.removed env
  else ((turn.filled env).flush env).1

/-- What the turn transmits: where it does not leave, the segments in the
window that were not sent yet. -/
def transmits (env : Env) (turn : Turn) : List Buf :=
  if (turn.removed env).outputPendingSegments = [] ∨ turn.LeavesAt env then []
  else (turn.filled env).unacknowledgedSegments.filter (·.sent = 0)

end Turn

theorem flush_eq (env : Env) (s : CtcpState) :
    s.flush env =
      if s.IsFull env then (s, true)
      else if s.IsDrained then ({ s with appLimitedUntil := s.inflightData }, true)
      else (CtcpState.transmitLoop env [] s.unacknowledgedSegments s, false) := rfl

theorem flush_returns_iff (env : Env) (s : CtcpState) :
    (s.flush env).2 = true ↔ s.IsFull env ∨ s.IsDrained := by
  rw [flush_eq]
  by_cases full : s.IsFull env
  · simp [full]
  · by_cases drained : s.IsDrained <;> simp [full, drained]

/-! ## What a turn does -/

/-- The admission loop keeps the order of the send queue. -/
theorem admitLoop_sendQueue (bs : List Buf) (s : CtcpState) (h : s.outputPendingSegments = bs) :
    (CtcpState.admitLoop bs s).sendQueue = s.sendQueue := by
  induction bs generalizing s with
  | nil => rfl
  | cons b rest ih =>
    rw [CtcpState.admitLoop]
    split
    · rw [ih _ rfl]
      simp [CtcpState.sendQueue, CtcpState.admitOne, CtcpState.log, h]
    · rfl

/-- The admission loop sends nothing and removes nothing. -/
theorem admitPending_trace {α : Type} (f : Event → Option α)
    (quiet : ∀ b sliding, f (.admitted b sliding) = none) (s : CtcpState) :
    s.admitPending.trace.filterMap f = s.trace.filterMap f := by
  refine admitLoop_relation (fun s t => t.trace.filterMap f = s.trace.filterMap f) (fun _ => rfl)
    (fun first next => next.trans first) ?_ _ s
  intro s b rest
  simp [CtcpState.admitOne, CtcpState.log, quiet]

/-- What follows the admission loop. -/
theorem flush_spec (env : Env) (s : CtcpState) :
    (s.flush env).1.trace = s.trace ++
        (if s.IsFull env ∨ s.IsDrained then []
        else (s.unacknowledgedSegments.filter (·.sent = 0)).map Event.transmitted) ∧
      (s.flush env).1.unacknowledgedSegments.map Buf.segment =
        s.unacknowledgedSegments.map Buf.segment ∧
      (s.flush env).1.outputPendingSegments = s.outputPendingSegments := by
  rw [flush_eq]
  by_cases returns : s.IsFull env ∨ s.IsDrained
  · rw [if_pos returns, List.append_nil]
    split
    · exact ⟨rfl, rfl, rfl⟩
    · rename_i room
      rw [if_pos (returns.resolve_left room)]
      exact ⟨rfl, rfl, rfl⟩
  · obtain ⟨room, more⟩ := not_or.mp returns
    rw [if_neg returns, if_neg room, if_neg more]
    exact transmitLoop_spec env [] _ s rfl

namespace Turn

variable {s : CtcpState} {b : Buf} {rest : List Buf}

theorem removed_eq (queue : s.unacknowledgedSegments = b :: rest) :
    removed env (s, b) = (s.measure env b).removeFront b rest := by
  rw [removed, queue, List.tail_cons]

theorem removed_pending (env : Env) (turn : Turn) :
    (turn.removed env).outputPendingSegments = turn.1.outputPendingSegments :=
  (tuned_measure env turn.1 turn.2).outputPendingSegments

/-- A turn takes the front segment off the send queue. -/
theorem after_segments (env : Env) (queue : s.unacknowledgedSegments = b :: rest) :
    s.queuedSegments = b.segment :: (after env (s, b)).queuedSegments := by
  have tuned := tuned_measure env s b
  have front : s.queuedSegments = b.segment :: (removed env (s, b)).queuedSegments := by
    rw [removed_eq queue, CtcpState.queuedSegments, CtcpState.sendQueue, queue,
      ← tuned.outputPendingSegments]
    rfl
  rw [front, after]
  split
  · rfl
  · obtain ⟨-, segments, pending⟩ := flush_spec env (filled env (s, b))
    have admitted : (filled env (s, b)).sendQueue = (removed env (s, b)).sendQueue :=
      admitLoop_sendQueue _ _ rfl
    rw [CtcpState.queuedSegments, CtcpState.queuedSegments, ← admitted, CtcpState.sendQueue,
      CtcpState.sendQueue, List.map_append, List.map_append, segments, pending]

theorem after_shorter (env : Env) (queue : s.unacknowledgedSegments = b :: rest) :
    (after env (s, b)).sendQueue.length < s.sendQueue.length := by
  have shorter := congrArg List.length (after_segments env queue)
  rw [CtcpState.queuedSegments, List.length_cons, List.length_map] at shorter
  rw [CtcpState.queuedSegments, List.length_map] at shorter
  omega

/-- What a turn adds to the trace, but for admissions. -/
theorem after_trace {α : Type} (env : Env) (f : Event → Option α)
    (quiet : ∀ b sliding, f (.admitted b sliding) = none) (s : CtcpState) (b : Buf) :
    (after env (s, b)).trace.filterMap f = s.trace.filterMap f ++
      ((Event.acknowledged b :: (transmits env (s, b)).map Event.transmitted).filterMap f) := by
  have front : (removed env (s, b)).trace = s.trace ++ [.acknowledged b] := by
    rw [removed, CtcpState.removeFront, CtcpState.log, (tuned_measure env s b).trace]
  have admitted := admitPending_trace f quiet (removed env (s, b))
  rw [front, List.filterMap_append] at admitted
  rw [after, transmits]
  by_cases idle : (removed env (s, b)).outputPendingSegments = []
  · rw [if_pos idle, if_pos (.inl idle), front, List.filterMap_append]
    rfl
  · obtain ⟨trace, -, -⟩ := flush_spec env (filled env (s, b))
    rw [if_neg idle, trace, List.filterMap_append, filled, admitted, List.append_assoc]
    by_cases leaves : (filled env (s, b)).IsFull env ∨ (filled env (s, b)).IsDrained
    · rw [filled] at leaves
      rw [if_pos leaves, if_pos (.inr ⟨idle, leaves⟩)]
      simp
    · have goesOn : ¬ ((removed env (s, b)).outputPendingSegments = [] ∨ LeavesAt env (s, b)) := by
        rintro (empty | ⟨-, leave⟩)
        · exact idle empty
        · exact leaves leave
      rw [if_neg goesOn]
      rw [filled] at leaves
      rw [if_neg leaves, ← List.filterMap_append]
      rfl

end Turn

/-! ## The loop -/

section

variable {s : CtcpState} {b : Buf} {rest : List Buf} {ackno : UInt32}

/-- The loop stops at a segment that `ackno` does not reach. -/
theorem ackLoop_stop (env : Env) (fuel : Nat)
    (stop : ∀ b ∈ s.unacknowledgedSegments.head?, ¬ b.segment.seqno < ackno) :
    CtcpState.ackTurns env ackno fuel s = [] ∧ s.ackLoop env ackno fuel = (s, false) := by
  cases fuel with
  | zero => exact ⟨rfl, rfl⟩
  | succ fuel =>
    rw [CtcpState.ackTurns, CtcpState.ackLoop]
    cases queue : s.unacknowledgedSegments with
    | nil => exact ⟨rfl, rfl⟩
    | cons b rest =>
      have beyond : ¬ b.segment.seqno < ackno := stop b (by simp [queue])
      dsimp only
      rw [if_neg beyond, if_neg beyond]
      exact ⟨rfl, rfl⟩

/-- The loop makes a turn of a front segment that `ackno` reaches. -/
theorem ackLoop_turn (env : Env) (fuel : Nat) (queue : s.unacknowledgedSegments = b :: rest)
    (reached : b.segment.seqno < ackno) :
    CtcpState.ackTurns env ackno (fuel + 1) s =
        (s, b) :: (if Turn.LeavesAt env (s, b) then []
          else CtcpState.ackTurns env ackno fuel (Turn.after env (s, b))) ∧
      s.ackLoop env ackno (fuel + 1) =
        if Turn.LeavesAt env (s, b) then (Turn.after env (s, b), true)
        else CtcpState.ackLoop env ackno fuel (Turn.after env (s, b)) := by
  rw [CtcpState.ackTurns, CtcpState.ackLoop, queue]
  dsimp only
  rw [if_pos reached, if_pos reached, ← Turn.removed_eq queue, Turn.after]
  by_cases idle : (Turn.removed env (s, b)).outputPendingSegments = []
  · have stays : ¬ Turn.LeavesAt env (s, b) := fun leaves => leaves.1 idle
    rw [if_pos idle, if_pos idle, if_pos idle, if_neg stays, if_neg stays]
    exact ⟨rfl, rfl⟩
  · have returns : ((Turn.filled env (s, b)).flush env).2 = true ↔ Turn.LeavesAt env (s, b) :=
      (flush_returns_iff env _).trans ⟨fun leaves => ⟨idle, leaves⟩, And.right⟩
    rw [if_neg idle, if_neg idle, if_neg idle, ← Turn.filled]
    by_cases leaves : Turn.LeavesAt env (s, b)
    · have early := returns.mpr leaves
      rw [if_pos leaves, if_pos leaves, if_pos early, if_pos early, ← early]
      exact ⟨rfl, rfl⟩
    · have late := returns.not.mpr leaves
      rw [if_neg leaves, if_neg leaves, if_neg late, if_neg late]
      exact ⟨rfl, rfl⟩

/-- Induction along the turns of the loop: it stops at a segment that `ackno`
does not reach, or a turn leaves, or it goes on after the turn. -/
theorem ackLoop_rec {motive : CtcpState → List Turn → CtcpState × Bool → Prop}
    (stop : ∀ s, (∀ b ∈ s.unacknowledgedSegments.head?, ¬ b.segment.seqno < ackno) →
      motive s [] (s, false))
    (leave : ∀ s b rest, s.unacknowledgedSegments = b :: rest → b.segment.seqno < ackno →
      Turn.LeavesAt env (s, b) → motive s [(s, b)] (Turn.after env (s, b), true))
    (next : ∀ s b rest turns r, s.unacknowledgedSegments = b :: rest → b.segment.seqno < ackno →
      ¬ Turn.LeavesAt env (s, b) → motive (Turn.after env (s, b)) turns r →
      motive s ((s, b) :: turns) r)
    (fuel : Nat) (s : CtcpState) (enough : s.sendQueue.length ≤ fuel) :
    motive s (s.ackTurns env ackno fuel) (s.ackLoop env ackno fuel) := by
  induction fuel generalizing s with
  | zero =>
    have empty : s.unacknowledgedSegments = [] :=
      (List.append_eq_nil_iff.mp (List.length_eq_zero_iff.mp (Nat.le_zero.mp enough))).1
    exact stop s (by simp [empty])
  | succ fuel ih =>
    by_cases none : ∀ b ∈ s.unacknowledgedSegments.head?, ¬ b.segment.seqno < ackno
    · obtain ⟨turns, loop⟩ := ackLoop_stop env (fuel + 1) none
      rw [turns, loop]
      exact stop s none
    · push Not at none
      obtain ⟨b, front, reached⟩ := none
      obtain ⟨rest, queue⟩ := List.head?_eq_some_iff.mp front
      obtain ⟨turns, loop⟩ := ackLoop_turn env fuel queue reached
      rw [turns, loop]
      by_cases leaves : Turn.LeavesAt env (s, b)
      · rw [if_pos leaves, if_pos leaves]
        exact leave s b rest queue reached leaves
      · rw [if_neg leaves, if_neg leaves]
        have shorter := Turn.after_shorter env queue
        exact next s b rest _ _ queue reached leaves (ih _ (by omega))

/-- The loop leaves `ctcp_receive` exactly if one of its turns does. -/
theorem ackLoop_leaves_iff {fuel : Nat} (enough : s.sendQueue.length ≤ fuel) :
    (s.ackLoop env ackno fuel).2 = true ↔
      ∃ turn ∈ s.ackTurns env ackno fuel, Turn.LeavesAt env turn := by
  refine ackLoop_rec (motive := fun _ turns r =>
    r.2 = true ↔ ∃ turn ∈ turns, Turn.LeavesAt env turn) ?_ ?_ ?_ fuel s enough
  · intro s _
    simp
  · intro s b rest _ _ leaves
    simp [leaves]
  · intro s b rest turns r _ _ stays ih
    simp [ih, stays]

/-- The loop takes the segments of its turns off the front of the send
queue. -/
theorem ackLoop_segments {fuel : Nat} (enough : s.sendQueue.length ≤ fuel) :
    s.queuedSegments = (s.ackTurns env ackno fuel).map (·.2.segment) ++
      (s.ackLoop env ackno fuel).1.queuedSegments := by
  refine ackLoop_rec (motive := fun s turns r =>
    s.queuedSegments = turns.map (·.2.segment) ++ r.1.queuedSegments) ?_ ?_ ?_ fuel s enough
  · intro s _
    rfl
  · intro s b rest queue _ _
    exact Turn.after_segments env queue
  · intro s b rest turns r queue _ _ ih
    rw [Turn.after_segments env queue, ih]
    rfl

/-- What the loop adds to the trace, but for admissions. -/
theorem ackLoop_trace {α : Type} (f : Event → Option α)
    (quiet : ∀ b sliding, f (.admitted b sliding) = none) {fuel : Nat}
    (enough : s.sendQueue.length ≤ fuel) :
    (s.ackLoop env ackno fuel).1.trace.filterMap f = s.trace.filterMap f ++
      (s.ackTurns env ackno fuel).flatMap fun turn =>
        (Event.acknowledged turn.2 :: (Turn.transmits env turn).map Event.transmitted).filterMap
          f := by
  refine ackLoop_rec (motive := fun s turns r => r.1.trace.filterMap f = s.trace.filterMap f ++
    turns.flatMap fun turn =>
      (Event.acknowledged turn.2 :: (Turn.transmits env turn).map Event.transmitted).filterMap f)
    ?_ ?_ ?_ fuel s enough
  · intro s _
    exact (List.append_nil _).symm
  · intro s b rest _ _ _
    rw [List.flatMap_singleton]
    exact Turn.after_trace env f quiet s b
  · intro s b rest turns r _ _ _ ih
    rw [ih, Turn.after_trace env f quiet, List.flatMap_cons, List.append_assoc]

end

/-! ## The ACK part -/

section

variable {s : CtcpState} {seg : CtcpSegment}

theorem processAck_leaves_iff (reaches : s.ReachesAck seg) :
    (s.processAck env seg).2 = true ↔
      ∃ turn ∈ s.receiveTurns env seg, Turn.LeavesAt env turn := by
  rw [CtcpState.processAck, CtcpState.receiveTurns]
  by_cases ack : seg.hasFlag thAck
  · rw [if_pos ack, if_pos ⟨reaches, ack⟩]
    exact ackLoop_leaves_iff le_rfl
  · rw [if_neg ack, if_neg fun both => ack both.2]
    simp

/-- The data part is reached exactly if no turn leaves. -/
theorem reachesData_iff :
    s.ReachesData env seg ↔
      s.ReachesAck seg ∧ ∀ turn ∈ s.receiveTurns env seg, ¬ Turn.LeavesAt env turn := by
  rw [CtcpState.ReachesData]
  refine and_congr_right fun reaches => ?_
  rw [← Bool.not_eq_true, processAck_leaves_iff reaches]
  push Not
  exact Iff.rfl

/-- What the ACK part adds to the trace, but for admissions. -/
theorem ackPart_trace {α : Type} (env : Env) (f : Event → Option α)
    (quiet : ∀ b sliding, f (.admitted b sliding) = none) (s : CtcpState) (seg : CtcpSegment) :
    (s.ackPart env seg).trace.filterMap f = s.trace.filterMap f ++
      (s.receiveTurns env seg).flatMap fun turn =>
        (Event.acknowledged turn.2 :: (Turn.transmits env turn).map Event.transmitted).filterMap
          f := by
  rw [CtcpState.ackPart, CtcpState.receiveTurns, CtcpState.processAck]
  by_cases reaches : s.ReachesAck seg
  · by_cases ack : seg.hasFlag thAck
    · rw [if_pos reaches, if_pos ack, if_pos ⟨reaches, ack⟩]
      exact ackLoop_trace f quiet le_rfl
    · rw [if_pos reaches, if_neg ack, if_neg fun both => ack both.2]
      exact (List.append_nil _).symm
  · rw [if_neg reaches, if_neg fun both => reaches both.1]
    exact (List.append_nil _).symm

/-- What is new in a trace that has grown. -/
theorem newEvents_filterMap {α : Type} {f : Event → Option α} {s t : CtcpState} {xs : List α}
    (grown : s.trace <+: t.trace)
    (eq : t.trace.filterMap f = s.trace.filterMap f ++ xs) : (newEvents s t).filterMap f = xs := by
  obtain ⟨es, trace⟩ := grown
  rw [← trace, List.filterMap_append] at eq
  rw [newEvents_eq trace.symm]
  exact List.append_cancel_left eq

end

end NetLabs.Ctcp
