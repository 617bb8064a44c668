/-
NetLabs.Ctcp.CumulativeAck — does an ACK remove exactly what it covers?

The ACK loop looks at the first byte of a segment only, so it also removes a
segment that the acknowledgement number cuts in two. And while segments are
pending it leaves `ctcp_receive` after its first turn with some estimates and
goes on with others, so what is then in `unacknowledged_segments` must be
neither covered nor reached. `TakesAck` says on the state before the call that
none of this comes up. With all estimates what is removed is then exactly what
is covered, and otherwise there are estimates with which it is not
(`removesCovered_iff`).
-/
import NetLabs.Ctcp.AckReturns
import NetLabs.Ctcp.Teardown

namespace NetLabs.Ctcp

open NetLabs.Lib

variable {env : Env}

/-! ## What is covered, and what is removed -/

/-- The whole payload lies below the acknowledgement number. -/
def Buf.CoveredBy (ackno : UInt32) (b : Buf) : Prop :=
  b.segment.seqno.toNat + b.segment.data.length ≤ ackno.toNat

/-- The acknowledgement number lies inside the payload. -/
def Buf.CutBy (ackno : UInt32) (b : Buf) : Prop :=
  b.segment.seqno < ackno ∧ ackno.toNat < b.segment.seqno.toNat + b.segment.data.length

instance (ackno : UInt32) (b : Buf) : Decidable (b.CoveredBy ackno) :=
  inferInstanceAs (Decidable (_ ≤ _))

instance (ackno : UInt32) (b : Buf) : Decidable (b.CutBy ackno) :=
  inferInstanceAs (Decidable (_ ∧ _))

/-- The segment an ACK removed. -/
def Event.acknowledged? : Event → Option Buf
  | .acknowledged b => some b
  | _ => none

namespace CtcpState

/-- The segments that leave `unacknowledged_segments` in `ctcp_receive`: all of
them with the connection, otherwise those the ACK removes. -/
def removedBy (env : Env) (s : CtcpState) (seg : CtcpSegment) : List Buf :=
  if (s.receive env seg).alive then
    (newEvents s (s.receive env seg)).filterMap Event.acknowledged?
  else s.unacknowledgedSegments

/-- The segments that are in `unacknowledged_segments` when `ctcp_receive`
returns. -/
def keptBy (env : Env) (s : CtcpState) (seg : CtcpSegment) : List Buf :=
  if (s.receive env seg).alive then (s.receive env seg).unacknowledgedSegments else []

/-- `ctcp_receive` removes exactly the segments the acknowledgement number
covers. -/
structure RemovesCovered (env : Env) (s : CtcpState) (seg : CtcpSegment) : Prop where
  removed : ∀ b ∈ s.removedBy env seg, b.CoveredBy seg.ackno
  kept : ∀ b ∈ s.keptBy env seg, ¬ b.CoveredBy seg.ackno

instance (env : Env) (s : CtcpState) (seg : CtcpSegment) :
    Decidable (s.RemovesCovered env seg) :=
  decidable_of_iff
    ((∀ b ∈ s.removedBy env seg, b.CoveredBy seg.ackno) ∧
      ∀ b ∈ s.keptBy env seg, ¬ b.CoveredBy seg.ackno)
    ⟨fun ⟨removed, kept⟩ => ⟨removed, kept⟩, fun h => ⟨h.removed, h.kept⟩⟩

/-- Whatever the estimates of congestion control are, `ctcp_receive` removes exactly
the segments the acknowledgement number covers. -/
def RemovesExactly (env : Env) (s : CtcpState) (seg : CtcpSegment) : Prop :=
  ∀ t, s.SameButEstimates t → t.RemovesCovered env seg

/-! ## What it takes -/

/-- The segments at the front of `unacknowledged_segments` that the ACK loop
takes for acknowledged. -/
def reachedBy (s : CtcpState) (ackno : UInt32) : List Buf :=
  s.unacknowledgedSegments.takeWhile (·.ReachedBy ackno)

/-- The segments from the first one on that it does not. -/
def beyond (s : CtcpState) (ackno : UInt32) : List Buf :=
  s.unacknowledgedSegments.dropWhile (·.ReachedBy ackno)

/-- What can be in `unacknowledged_segments` when a turn has removed the front
segment: the others, and the pending ones that the widest window lets in. -/
def exposed (s : CtcpState) (b : Buf) : List Buf :=
  s.unacknowledgedSegments.tail ++
    admitted 65535 (s.slidingWindowSizeBytes - b.segment.len) s.outputPendingSegments

/-- What it takes of the state before the call for an ACK to remove what it
covers. -/
structure TakesAck (s : CtcpState) (seg : CtcpSegment) : Prop where
  /-- After the peer's FIN any segment removes everything. -/
  closed : s.connectionState = 1 → ∀ b ∈ s.unacknowledgedSegments, b.CoveredBy seg.ackno
  /-- A FIN keeps its ACK from being looked at. -/
  fin : seg.hasFlag thFin ∧ s.connectionState = 0 →
    ∀ b ∈ s.unacknowledgedSegments, ¬ b.CoveredBy seg.ackno
  uncut : s.ReachesAck seg → ∀ b ∈ s.reachedBy seg.ackno, ¬ b.CutBy seg.ackno
  beyond : s.ReachesAck seg → ∀ b ∈ s.beyond seg.ackno, ¬ b.CoveredBy seg.ackno
  /-- While segments are pending the loop may end after its first turn, and it
  may go on. -/
  alone : s.ReachesAck seg → s.outputPendingSegments ≠ [] →
    ∀ b ∈ s.unacknowledgedSegments.head?, b.ReachedBy seg.ackno →
      (∀ c ∈ s.exposed b, ¬ c.CoveredBy seg.ackno) ∧
        ∀ c ∈ (s.exposed b).head?, ¬ c.ReachedBy seg.ackno

end CtcpState

open CtcpState

theorem Buf.coveredBy_iff {ackno : UInt32} {b : Buf} (reached : b.ReachedBy ackno) :
    b.CoveredBy ackno ↔ ¬ b.CutBy ackno := by
  rw [Buf.CoveredBy, Buf.CutBy]
  constructor
  · exact fun covered cut => Nat.not_lt.mpr covered cut.2
  · exact fun uncut => Nat.not_lt.mp fun inside => uncut ⟨reached, inside⟩

/-! ## `ctcp_receive` -/

/-- The data part sends and puts out, and removes nothing. -/
theorem processData_acknowledged (s : CtcpState) (seg : CtcpSegment) :
    (s.processData env seg).trace.filterMap Event.acknowledged? =
      s.trace.filterMap Event.acknowledged? := by
  rw [processData]
  split
  · simp [sendSegment, sendControl, log, recordSeqno, Event.acknowledged?]
  · rfl

/-- What the ACK removes is what its turns start with. -/
theorem receive_acknowledged (env : Env) (s : CtcpState) (seg : CtcpSegment) :
    (newEvents s (s.receive env seg)).filterMap Event.acknowledged? =
      (s.receiveTurns env seg).map Prod.snd := by
  have part : (s.ackPart env seg).trace.filterMap Event.acknowledged? =
      s.trace.filterMap Event.acknowledged? ++ (s.receiveTurns env seg).map Prod.snd := by
    rw [ackPart_trace env Event.acknowledged? (fun _ _ => rfl), List.map_eq_flatMap]
    congr 2
    funext turn
    simp [Event.acknowledged?]
  refine newEvents_filterMap (micros_trace (receive_micro s seg)) (Eq.trans ?_ part)
  by_cases data : s.ReachesData env seg
  · rw [receive_data data, processData_acknowledged]
  · obtain ⟨-, trace | ⟨position, c, -, trace⟩⟩ := receive_no_data data
    · rw [trace]
    · rw [trace]
      simp [Event.acknowledged?]

/-- What is removed is at the front of the send queue before and no longer on
it after. -/
theorem receive_segments {s : CtcpState} {seg : CtcpSegment} (alive : s.alive = true)
    (opened : s.connectionState ≠ 1) :
    s.queuedSegments =
      (s.removedBy env seg).map Buf.segment ++ (s.receive env seg).queuedSegments := by
  have lives : (s.receive env seg).alive = true := (receive_alive s seg opened).trans alive
  rw [removedBy, if_pos lives, receive_acknowledged, List.map_map]
  by_cases fin : seg.hasFlag thFin ∧ s.connectionState = 0
  · have none : s.receiveTurns env seg = [] := if_neg fun both => both.1.1 fin
    rw [none, receive_fin env fin.1 fin.2]
    rfl
  · have reaches : s.ReachesAck seg := ⟨fin, opened⟩
    obtain ⟨unacknowledged, pending⟩ := receive_queues env reaches
    have same : (s.receive env seg).queuedSegments = (s.processAck env seg).1.queuedSegments := by
      rw [queuedSegments, queuedSegments, sendQueue, sendQueue, unacknowledged, pending]
    rw [same, receiveTurns, processAck]
    by_cases ack : seg.hasFlag thAck
    · rw [if_pos ⟨reaches, ack⟩, if_pos ack]
      exact ackLoop_segments le_rfl
    · rw [if_neg fun both => ack both.2, if_neg ack]
      rfl

theorem removesCovered_iff_of {s : CtcpState} {seg : CtcpSegment} {gone left : List Buf}
    (removed : s.removedBy env seg = gone) (kept : s.keptBy env seg = left) :
    s.RemovesCovered env seg ↔
      (∀ b ∈ gone, b.CoveredBy seg.ackno) ∧ ∀ b ∈ left, ¬ b.CoveredBy seg.ackno := by
  constructor
  · rintro ⟨covered, uncovered⟩
    rw [removed] at covered
    rw [kept] at uncovered
    exact ⟨covered, uncovered⟩
  · rintro ⟨covered, uncovered⟩
    constructor
    · rw [removed]
      exact covered
    · rw [kept]
      exact uncovered

/-- After the peer's FIN everything is removed. -/
theorem removesCovered_closed_iff {s : CtcpState} {seg : CtcpSegment}
    (closed : s.connectionState = 1) :
    s.RemovesCovered env seg ↔ ∀ b ∈ s.unacknowledgedSegments, b.CoveredBy seg.ackno := by
  have dead : (s.receive env seg).alive = false := by
    rw [receive_closed env closed]
    rfl
  have removed : s.removedBy env seg = s.unacknowledgedSegments := by
    rw [removedBy, dead]
    rfl
  have kept : s.keptBy env seg = [] := by
    rw [keptBy, dead]
    rfl
  rw [removesCovered_iff_of removed kept]
  exact and_iff_left (List.forall_mem_nil _)

/-- On a live connection that stays so, the turns of the loop remove. -/
theorem removesCovered_alive_iff {s : CtcpState} {seg : CtcpSegment} (alive : s.alive = true)
    (opened : s.connectionState ≠ 1) :
    s.RemovesCovered env seg ↔ (∀ turn ∈ s.receiveTurns env seg, turn.2.CoveredBy seg.ackno) ∧
      ∀ b ∈ (s.receive env seg).unacknowledgedSegments, ¬ b.CoveredBy seg.ackno := by
  have lives : (s.receive env seg).alive = true := (receive_alive s seg opened).trans alive
  have removed : s.removedBy env seg = (s.receiveTurns env seg).map Prod.snd := by
    rw [removedBy, if_pos lives, receive_acknowledged]
  have kept : s.keptBy env seg = (s.receive env seg).unacknowledgedSegments := by
    rw [keptBy, if_pos lives]
  rw [removesCovered_iff_of removed kept, List.forall_mem_map]

/-- A FIN removes nothing. -/
theorem removesCovered_fin_iff {s : CtcpState} {seg : CtcpSegment} (alive : s.alive = true)
    (fin : seg.hasFlag thFin ∧ s.connectionState = 0) :
    s.RemovesCovered env seg ↔ ∀ b ∈ s.unacknowledgedSegments, ¬ b.CoveredBy seg.ackno := by
  have opened : s.connectionState ≠ 1 := by
    rw [fin.2]
    decide
  have none : s.receiveTurns env seg = [] := if_neg fun both => both.1.1 fin
  rw [removesCovered_alive_iff alive opened, none, receive_fin env fin.1 fin.2]
  exact and_iff_right (List.forall_mem_nil _)

/-! ## The loop -/

section

variable {s : CtcpState} {seg : CtcpSegment}

/-- Where the ACK is looked at the turns of the loop remove. -/
theorem removesCovered_loop_iff (alive : s.alive = true) (reaches : s.ReachesAck seg) :
    s.RemovesCovered env seg ↔ (∀ turn ∈ s.receiveTurns env seg, turn.2.CoveredBy seg.ackno) ∧
      ∀ b ∈ (s.processAck env seg).1.unacknowledgedSegments, ¬ b.CoveredBy seg.ackno := by
  rw [removesCovered_alive_iff alive reaches.2, (receive_queues env reaches).1]

/-- A loop that does not come to its `return`s removes what it reaches. -/
theorem removesCovered_avoids_iff (alive : s.alive = true) (reaches : s.ReachesAck seg)
    (ack : seg.hasFlag thAck) (avoids : s.AvoidsReturns seg) :
    s.RemovesCovered env seg ↔ (∀ b ∈ s.reachedBy seg.ackno, b.CoveredBy seg.ackno) ∧
      ∀ b ∈ s.beyond seg.ackno, ¬ b.CoveredBy seg.ackno := by
  have split : (s.receiveTurns env seg).map Prod.snd = s.reachedBy seg.ackno ∧
      (s.processAck env seg).1.unacknowledgedSegments = s.beyond seg.ackno := by
    rw [receiveTurns, if_pos ⟨reaches, ack⟩, processAck, if_pos ack]
    rcases avoids ack with idle | stop
    · exact (ackLoop_idle env seg.ackno le_rfl idle).2
    · obtain ⟨turns, loop⟩ := ackLoop_stop env s.sendQueue.length stop
      rw [turns, loop, reachedBy, beyond]
      cases queue : s.unacknowledgedSegments with
      | nil => exact ⟨rfl, rfl⟩
      | cons b rest =>
        have first : ¬ b.ReachedBy seg.ackno := stop b (by simp [queue])
        simp [first]
  rw [removesCovered_loop_iff alive reaches, ← List.forall_mem_map (f := Prod.snd), split.1,
    split.2]

variable {b : Buf} {rest : List Buf}

theorem reached_of_reachedBy {ackno : UInt32} (there : b ∈ s.reachedBy ackno) :
    b.ReachedBy ackno :=
  of_decide_eq_true (List.all_eq_true.mp List.all_takeWhile b there)

/-- Behind a segment that is reached alone everything is beyond. -/
theorem reachedBy_alone {ackno : UInt32} (queue : s.unacknowledgedSegments = b :: rest)
    (reached : b.ReachedBy ackno) (alone : ∀ c ∈ (s.exposed b).head?, ¬ c.ReachedBy ackno) :
    s.reachedBy ackno = [b] ∧ s.beyond ackno = rest := by
  rw [exposed, queue, List.tail_cons] at alone
  rw [reachedBy, beyond, queue]
  cases rest with
  | nil => simp [reached]
  | cons c rest =>
    have stop : ¬ c.ReachedBy ackno := alone c (by simp)
    simp [reached, stop]

/-- Whether a segment is covered does not depend on its marks. -/
theorem uncovered_congr {xs ys : List Buf} {ackno : UInt32}
    (same : xs.map Buf.segment = ys.map Buf.segment) :
    (∀ c ∈ xs, ¬ c.CoveredBy ackno) ↔ ∀ c ∈ ys, ¬ c.CoveredBy ackno := by
  have onSegments (zs : List Buf) : (∀ c ∈ zs, ¬ c.CoveredBy ackno) ↔
      ∀ x ∈ zs.map Buf.segment, ¬ x.seqno.toNat + x.data.length ≤ ackno.toNat :=
    (List.forall_mem_map (P := fun x : CtcpSegment =>
      ¬ x.seqno.toNat + x.data.length ≤ ackno.toNat)).symm
  rw [onSegments, onSegments, same]

/-- The front segments agree as well. -/
theorem front_segment {xs ys : List Buf} {c : Buf}
    (inside : xs.map Buf.segment <+: ys.map Buf.segment) (front : xs.head? = some c) :
    ∃ d, ys.head? = some d ∧ d.segment = c.segment := by
  obtain ⟨rest, queue⟩ := List.head?_eq_some_iff.mp front
  obtain ⟨more, eq⟩ := inside
  rw [queue] at eq
  cases ys with
  | nil => simp at eq
  | cons d ys => exact ⟨d, rfl, (List.cons.inj eq).1.symm⟩

/-- No window is wider. -/
theorem widest (window : UInt16) : window ≤ 65535 :=
  UInt16.le_iff_toNat_le.mpr (Nat.le_of_lt_succ window.toNat_lt)

/-- The front segment is the only one reached, and nothing that can be behind
it is covered: with any estimates the loop removes the front segment. -/
theorem removesCovered_alone (alive : s.alive = true) (reaches : s.ReachesAck seg)
    (ack : seg.hasFlag thAck) (pending : s.outputPendingSegments ≠ [])
    (queue : s.unacknowledgedSegments = b :: rest) (reached : b.ReachedBy seg.ackno)
    (covered : b.CoveredBy seg.ackno) (clear : ∀ c ∈ s.exposed b, ¬ c.CoveredBy seg.ackno)
    (alone : ∀ c ∈ (s.exposed b).head?, ¬ c.ReachedBy seg.ackno) :
    s.RemovesCovered env seg := by
  obtain ⟨turns, loop⟩ := receiveTurns_turn env reaches ack queue reached
  have segments := Turn.after_pending env (s, b) pending
  have inside : (Turn.filled env (s, b)).unacknowledgedSegments <+: s.exposed b := by
    rw [Turn.filled_unacknowledged]
    exact (List.prefix_append_right_inj _).mpr (admitted_isPrefixOf (widest _) _ _)
  have cleared : ∀ c ∈ (Turn.after env (s, b)).unacknowledgedSegments,
      ¬ c.CoveredBy seg.ackno := by
    rw [uncovered_congr segments]
    exact fun c there => clear c (inside.subset there)
  have stop : ∀ c ∈ (Turn.after env (s, b)).unacknowledgedSegments.head?,
      ¬ c.ReachedBy seg.ackno := by
    intro c front reached
    obtain ⟨d, first, same⟩ := front_segment (segments ▸ inside.map Buf.segment) front
    exact alone d first (by rwa [Buf.ReachedBy, same])
  rw [removesCovered_loop_iff alive reaches, turns, loop]
  by_cases leaves : Turn.LeavesAt env (s, b)
  · rw [if_pos leaves, if_pos leaves]
    exact ⟨List.forall_mem_singleton.mpr covered, cleared⟩
  · obtain ⟨noMore, ends⟩ := ackLoop_stop env (rest ++ s.outputPendingSegments).length stop
    rw [if_neg leaves, if_neg leaves, noMore, ends]
    exact ⟨List.forall_mem_singleton.mpr covered, cleared⟩

/-- While segments are pending, what removes exactly what is covered with all
estimates does so after its first turn and goes no further. -/
theorem alone_of_removes (ieee : env.float.Ieee) (alive : s.alive = true)
    (reaches : s.ReachesAck seg) (ack : seg.hasFlag thAck)
    (pending : s.outputPendingSegments ≠ []) (queue : s.unacknowledgedSegments = b :: rest)
    (reached : b.ReachedBy seg.ackno) (exactly : s.RemovesExactly env seg) :
    (∀ c ∈ s.exposed b, ¬ c.CoveredBy seg.ackno) ∧
      ∀ c ∈ (s.exposed b).head?, ¬ c.ReachedBy seg.ackno := by
  have clear : ∀ c ∈ s.exposed b, ¬ c.CoveredBy seg.ackno := by
    -- A first turn that leaves.
    let t := s.estimating 1 65535 (b.segment.len.toUInt32 + 4)
    have leaves : Turn.LeavesAt env (t, b) := leavesAt_estimating ieee pending
    have kept := ((removesCovered_loop_iff (s := t) alive reaches).mp
      (exactly t (sameButEstimates_estimating s 1 65535 _))).2
    rw [(receiveTurns_turn env (s := t) reaches ack queue reached).2, if_pos leaves,
      Turn.after_leaves leaves, (filled_estimating s b 65535 env 1 _).unacknowledged,
      refilled_unacknowledged] at kept
    exact kept
  refine ⟨clear, fun c front next => ?_⟩
  -- And one behind which the loop goes on.
  let t := s.estimating 0 65535
    (b.segment.len.toUInt32 + ((s.refilled b 65535).slidingWindowSizeBytes.toUInt32 + 1))
  have goesOn : ¬ Turn.LeavesAt env (t, b) := goesOn_estimating ieee
  have removed := ((removesCovered_loop_iff (s := t) alive reaches).mp
    (exactly t (sameButEstimates_estimating s 0 65535 _))).1
  have segments : (Turn.after env (t, b)).unacknowledgedSegments.map Buf.segment =
      (s.exposed b).map Buf.segment := by
    rw [Turn.after_pending env (t, b) pending,
      (filled_estimating s b 65535 env 0 _).unacknowledged, refilled_unacknowledged]
    rfl
  have inFront : (s.exposed b).map Buf.segment <+:
      (Turn.after env (t, b)).unacknowledgedSegments.map Buf.segment :=
    segments ▸ List.prefix_rfl
  obtain ⟨d, first, same⟩ := front_segment inFront front
  obtain ⟨more, left⟩ := List.head?_eq_some_iff.mp first
  have room : (rest ++ t.outputPendingSegments).length =
      (rest ++ t.outputPendingSegments).length - 1 + 1 :=
    (Nat.sub_add_cancel (List.length_pos_iff.mpr
      (List.append_ne_nil_of_right_ne_nil rest pending))).symm
  rw [(receiveTurns_turn env (s := t) reaches ack queue reached).1, if_neg goesOn, room,
    (ackLoop_turn env _ left (by rwa [same])).1] at removed
  have covered : d.CoveredBy seg.ackno :=
    removed (Turn.after env (t, b), d) (List.mem_cons_of_mem _ List.mem_cons_self)
  rw [Buf.CoveredBy, same] at covered
  exact clear c (List.mem_of_mem_head? front) covered

end

/-! ## When it does -/

variable {s t : CtcpState} {seg : CtcpSegment}

theorem removesCovered_of_takes (alive : s.alive = true) (ack : seg.hasFlag thAck)
    (takes : s.TakesAck seg) : s.RemovesCovered env seg := by
  by_cases closed : s.connectionState = 1
  · exact (removesCovered_closed_iff closed).mpr (takes.closed closed)
  by_cases fin : seg.hasFlag thFin ∧ s.connectionState = 0
  · exact (removesCovered_fin_iff alive fin).mpr (takes.fin fin)
  have reaches : s.ReachesAck seg := ⟨fin, closed⟩
  have covered : ∀ b ∈ s.reachedBy seg.ackno, b.CoveredBy seg.ackno := by
    intro b there
    exact (Buf.coveredBy_iff (reached_of_reachedBy there)).mpr (takes.uncut reaches b there)
  by_cases avoids : s.AvoidsReturns seg
  · exact (removesCovered_avoids_iff alive reaches ack avoids).mpr
      ⟨covered, takes.beyond reaches⟩
  · rw [AvoidsReturns] at avoids
    push Not at avoids
    obtain ⟨-, pending, b, front, reached⟩ := avoids
    obtain ⟨rest, queue⟩ := List.head?_eq_some_iff.mp front
    obtain ⟨clear, alone⟩ := takes.alone reaches pending b front reached
    have only := (reachedBy_alone queue reached alone).1
    exact removesCovered_alone alive reaches ack pending queue reached
      (covered b (only ▸ List.mem_singleton_self b)) clear alone

/-- What it takes does not depend on the estimates. -/
theorem CtcpState.SameButEstimates.takesAck (same : s.SameButEstimates t)
    (takes : s.TakesAck seg) : t.TakesAck seg := by
  rw [same]
  exact ⟨takes.closed, takes.fin, takes.uncut, takes.beyond, takes.alone⟩

theorem takes_of_removesExactly (ieee : env.float.Ieee) (alive : s.alive = true)
    (ack : seg.hasFlag thAck) (exactly : s.RemovesExactly env seg) : s.TakesAck seg := by
  have here := exactly s (.refl s)
  by_cases closed : s.connectionState = 1
  · have opened : s.connectionState ≠ 0 := by
      rw [closed]
      decide
    exact {
      closed := fun _ => (removesCovered_closed_iff closed).mp here
      fin := fun fin => absurd fin.2 opened
      uncut := fun reaches => absurd closed reaches.2
      beyond := fun reaches => absurd closed reaches.2
      alone := fun reaches => absurd closed reaches.2 }
  by_cases fin : seg.hasFlag thFin ∧ s.connectionState = 0
  · exact {
      closed := fun h => absurd h closed
      fin := fun _ => (removesCovered_fin_iff alive fin).mp here
      uncut := fun reaches => absurd fin reaches.1
      beyond := fun reaches => absurd fin reaches.1
      alone := fun reaches => absurd fin reaches.1 }
  have reaches : s.ReachesAck seg := ⟨fin, closed⟩
  by_cases avoids : s.AvoidsReturns seg
  · obtain ⟨covered, uncovered⟩ :=
      (removesCovered_avoids_iff alive reaches ack avoids).mp here
    refine ⟨fun h => absurd h closed, fun h => absurd h fin, fun _ b there => ?_,
      fun _ => uncovered, fun _ pending b front reached => ?_⟩
    · exact (Buf.coveredBy_iff (reached_of_reachedBy there)).mp (covered b there)
    · exact absurd reached ((avoids ack).resolve_left pending b front)
  · rw [AvoidsReturns] at avoids
    push Not at avoids
    obtain ⟨-, pending, b, front, reached⟩ := avoids
    obtain ⟨rest, queue⟩ := List.head?_eq_some_iff.mp front
    obtain ⟨clear, alone⟩ :=
      alone_of_removes ieee alive reaches ack pending queue reached exactly
    obtain ⟨only, behind⟩ := reachedBy_alone queue reached alone
    have covered : b.CoveredBy seg.ackno := by
      refine ((removesCovered_loop_iff alive reaches).mp here).1 (s, b) ?_
      rw [(receiveTurns_turn env reaches ack queue reached).1]
      exact List.mem_cons_self
    refine ⟨fun h => absurd h closed, fun h => absurd h fin, fun _ => ?_, fun _ => ?_,
      fun _ _ c first _ => ?_⟩
    · rw [only, List.forall_mem_singleton]
      exact (Buf.coveredBy_iff reached).mp covered
    · rw [behind]
      intro c there
      exact clear c (List.mem_append_left _ (by rwa [queue]))
    · obtain rfl := Option.some.inj (front.symm.trans first)
      exact ⟨clear, alone⟩

/-- Two bytes are sent and wait to be acknowledged. -/
def sentTwo : CtcpState :=
  CtcpState.sendSegment (.plain .little) (.fresh (.plain .little)) [97, 98] thAck.toNat true

end NetLabs.Ctcp
