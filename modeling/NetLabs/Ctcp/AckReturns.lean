/-
NetLabs.Ctcp.AckReturns — the two `return`s inside the ACK loop.

A turn of the ACK loop comes to them if segments are pending once it has
removed its own. Which way it goes then depends on the BBR record, on the RTT
and the bandwidth captured, and on `inflight_data`, and the turn brings all of
these up to date first. The state before the call says where the loop does not
come to them at all (`AvoidsReturns`). Everywhere else there are estimates with
which the first turn leaves (`leavesAt_estimating`), and others with which it
goes on (`goesOn_estimating`).
-/
import NetLabs.Ctcp.AckTurns

namespace NetLabs.Ctcp

open NetLabs.Lib

variable {env : Env}

/-- The ACK loop takes the segment for acknowledged: it looks at its first
byte. -/
def Buf.ReachedBy (ackno : UInt32) (b : Buf) : Prop := b.segment.seqno < ackno

instance (ackno : UInt32) (b : Buf) : Decidable (b.ReachedBy ackno) :=
  inferInstanceAs (Decidable (_ < _))

/-- The pending segments that a window of `window` bytes lets in when the
counter stands at `sliding`. -/
def admitted (window : UInt16) : UInt16 → List Buf → List Buf
  | _, [] => []
  | sliding, b :: rest =>
      if sliding < window then b :: admitted window (sliding + b.segment.len) rest else []

/-- A wider window lets in more. -/
theorem admitted_isPrefixOf {window wider : UInt16} (le : window ≤ wider) (sliding : UInt16)
    (bs : List Buf) : admitted window sliding bs <+: admitted wider sliding bs := by
  induction bs generalizing sliding with
  | nil => exact List.prefix_refl []
  | cons b rest ih =>
    rw [admitted, admitted]
    by_cases room : sliding < window
    · rw [if_pos room, if_pos (UInt16.lt_of_lt_of_le room le)]
      exact List.cons_prefix_cons.mpr ⟨rfl, ih _⟩
    · rw [if_neg room]
      exact List.nil_prefix

theorem admitLoop_unacknowledged (bs : List Buf) (s : CtcpState) :
    (CtcpState.admitLoop bs s).unacknowledgedSegments =
      s.unacknowledgedSegments ++ admitted s.sendWindow s.slidingWindowSizeBytes bs := by
  induction bs generalizing s with
  | nil => exact (List.append_nil _).symm
  | cons b rest ih =>
    rw [CtcpState.admitLoop, admitted]
    split
    · rw [ih]
      simp [CtcpState.admitOne, CtcpState.log]
    · exact (List.append_nil _).symm

namespace CtcpState

/-- The states differ at most in what congestion control goes by: its record,
the RTT and the bandwidth captured, and the data in flight. -/
def SameButEstimates (s t : CtcpState) : Prop :=
  t = { s with
    bbr := t.bbr
    minimumRttCaptured := t.minimumRttCaptured
    maximumBandwidthCaptured := t.maximumBandwidthCaptured
    inflightData := t.inflightData }

theorem SameButEstimates.refl (s : CtcpState) : s.SameButEstimates s := rfl

/-- The ACK loop does not come to its `return`s: it makes no turn, or no
segment is pending. -/
def AvoidsReturns (s : CtcpState) (seg : CtcpSegment) : Prop :=
  seg.hasFlag thAck → s.outputPendingSegments = [] ∨
    ∀ b ∈ s.unacknowledgedSegments.head?, ¬ b.ReachedBy seg.ackno

instance (s : CtcpState) (seg : CtcpSegment) : Decidable (s.AvoidsReturns seg) :=
  inferInstanceAs (Decidable (_ → _))

end CtcpState

open CtcpState

/-! ## Where the loop does not come to them -/

/-- Where nothing is pending no turn comes to the `return`s, and the loop
removes the segments that are reached. -/
theorem ackLoop_idle (env : Env) (ackno : UInt32) {s : CtcpState} {fuel : Nat}
    (enough : s.sendQueue.length ≤ fuel) (idle : s.outputPendingSegments = []) :
    (∀ turn ∈ s.ackTurns env ackno fuel, (Turn.removed env turn).outputPendingSegments = []) ∧
      (s.ackTurns env ackno fuel).map Prod.snd =
        s.unacknowledgedSegments.takeWhile (·.ReachedBy ackno) ∧
      (s.ackLoop env ackno fuel).1.unacknowledgedSegments =
        s.unacknowledgedSegments.dropWhile (·.ReachedBy ackno) := by
  revert idle
  refine ackLoop_rec (motive := fun s turns r => s.outputPendingSegments = [] →
    (∀ turn ∈ turns, (Turn.removed env turn).outputPendingSegments = []) ∧
      turns.map Prod.snd = s.unacknowledgedSegments.takeWhile (·.ReachedBy ackno) ∧
      r.1.unacknowledgedSegments = s.unacknowledgedSegments.dropWhile (·.ReachedBy ackno))
    ?_ ?_ ?_ fuel s enough
  · intro s stop _
    cases queue : s.unacknowledgedSegments with
    | nil => exact ⟨List.forall_mem_nil _, rfl, rfl⟩
    | cons b rest =>
      have beyond : ¬ b.ReachedBy ackno := stop b (by simp [queue])
      simp [beyond]
  · intro s b rest _ _ leaves idle
    exact absurd ((Turn.removed_pending env (s, b)).trans idle) leaves.1
  · intro s b rest turns r queue reached _ ih idle
    have still := (Turn.removed_pending env (s, b)).trans idle
    have removed : Turn.after env (s, b) = (s.measure env b).removeFront b rest := by
      rw [Turn.after, if_pos still, Turn.removed_eq queue]
    obtain ⟨none, made, left⟩ := ih (by
      rw [removed]
      exact (tuned_measure env s b).outputPendingSegments.trans idle)
    have tail : (Turn.after env (s, b)).unacknowledgedSegments = rest := by rw [removed]; rfl
    have here : b.ReachedBy ackno := reached
    rw [tail] at made left
    refine ⟨List.forall_mem_cons.mpr ⟨still, none⟩, ?_, ?_⟩
    · rw [List.map_cons, made, queue, List.takeWhile_cons_of_pos (by simpa using here)]
    · rw [left, queue, List.dropWhile_cons_of_pos (by simpa using here)]

/-- The turns of a call that avoids the `return`s do not come to them. -/
theorem turns_of_avoids (env : Env) {s : CtcpState} {seg : CtcpSegment}
    (h : s.AvoidsReturns seg) :
    ∀ turn ∈ s.receiveTurns env seg, (Turn.removed env turn).outputPendingSegments = [] := by
  rw [receiveTurns]
  split
  · rename_i ack
    rcases h ack.2 with idle | stop
    · exact (ackLoop_idle env seg.ackno le_rfl idle).1
    · rw [(ackLoop_stop env _ stop).1]
      exact List.forall_mem_nil _
  · exact List.forall_mem_nil _

/-! ## Where it does -/

/-- A record that is about to leave `DRAIN`: the next sample changes neither
the window nor the two estimates. -/
def Bbr.leaving (b : Bbr) (rtProp : Int) (window : UInt16) : Bbr :=
  { b with
    currentlyExecutingMode := .drain
    rttsHappened := 20
    drainBegin := 0
    rtProp
    bottleneckBandwidth := 1
    cwnd := window.toNat }

/-- The connection, with such a record and this much in flight. -/
def CtcpState.estimating (s : CtcpState) (rtProp : Int) (window : UInt16) (inflight : UInt32) :
    CtcpState :=
  { s with
    bbr := s.bbr.leaving rtProp window
    minimumRttCaptured := 0
    inflightData := inflight }

theorem sameButEstimates_estimating (s : CtcpState) (rtProp : Int) (window : UInt16)
    (inflight : UInt32) : s.SameButEstimates (s.estimating rtProp window inflight) := rfl

/-- What is left when the front segment is removed, with this window. -/
def CtcpState.withoutFront (s : CtcpState) (b : Buf) (window : UInt16) : CtcpState :=
  { s with
    sendWindow := window
    slidingWindowSizeBytes := s.slidingWindowSizeBytes - b.segment.len
    unacknowledgedSegments := s.unacknowledgedSegments.tail }

/-- The states agree on what the admission loop and the test behind it look
at. -/
structure SameRoom (rtProp : Int) (inflight : UInt32) (s t : CtcpState) : Prop where
  rtProp : t.bbr.rtProp = rtProp
  bandwidth : t.bbr.bottleneckBandwidth = 1
  inflight : t.inflightData = inflight
  window : t.sendWindow = s.sendWindow
  sliding : t.slidingWindowSizeBytes = s.slidingWindowSizeBytes
  unacknowledged : t.unacknowledgedSegments = s.unacknowledgedSegments
  pending : t.outputPendingSegments = s.outputPendingSegments

section

variable (s : CtcpState) (b : Buf) (rtProp : Int) (window : UInt16) (inflight : UInt32)

/-- The next sample leaves `DRAIN` behind, and the window and the estimates as
they are. -/
theorem sampled_estimating (env : Env) (rtt : Int) :
    ((s.estimating rtProp window inflight).sampledBbr env b rtt).Leaves ∧
      ((s.estimating rtProp window inflight).sampledBbr env b rtt).bottleneckBandwidth = 1 := by
  have counted : (s.estimating rtProp window inflight).nextRtts b =
      if (s.estimating rtProp window inflight).counts b then 21 else 20 := rfl
  constructor
  · have mode : (s.estimating rtProp window inflight).nextMode rtt = .drain := by
      simp [nextMode, estimating, Bbr.leaving]
    rw [Bbr.Leaves, sampledBbr]
    dsimp only
    rw [mode, counted]
    dsimp only
    have began : (s.estimating rtProp window inflight).bbr.drainBegin = 0 := rfl
    split <;> omega
  · show (s.estimating rtProp window inflight).nextBandwidth env b rtt = 1
    rw [nextBandwidth, if_neg (by simp [estimating, Bbr.leaving]), if_neg]
    · rfl
    · rintro ⟨counts, tenth, -⟩
      rw [counted, if_pos counts] at tenth
      exact absurd tenth (by decide)

theorem removed_estimating (env : Env) :
    SameRoom rtProp (inflight - b.segment.len.toUInt32) (s.withoutFront b window)
      (Turn.removed env (s.estimating rtProp window inflight, b)) := by
  set t := s.estimating rtProp window inflight with ht
  obtain ⟨leaves, bandwidth⟩ := sampled_estimating s b rtProp window inflight env (t.rtt env b)
  have kept := Bbr.onAck_keeps env.float env.wildGain (t.sampledBbr env b (t.rtt env b))
  have cwnd := (Bbr.onAck_leaves env.float env.wildGain leaves).1
  have measured := measure_sampledBbr env t b
  rw [Turn.removed, removeFront, log, measured]
  constructor
  case rtProp =>
    refine kept.1.trans ?_
    simp [sampledBbr, nextRtProp, ht, estimating, Bbr.leaving]
  case bandwidth => exact kept.2.1.trans bandwidth
  case window =>
    show UInt16.ofInt (onAckBbrStateChk env.float env.wildGain _).cwnd = window
    rw [cwnd]
    show UInt16.ofInt (window.toNat : Int) = window
    rw [uint16_ofInt_ofNat, UInt16.ofNat_toNat]
  case inflight | sliding | unacknowledged | pending => rfl

end

/-- The admission loop goes the same way in states that agree on what it looks
at. -/
theorem SameRoom.admitLoop {rtProp : Int} {inflight : UInt32} (bs : List Buf) {s t : CtcpState}
    (h : SameRoom rtProp inflight s t) :
    SameRoom rtProp inflight (CtcpState.admitLoop bs s) (CtcpState.admitLoop bs t) := by
  induction bs generalizing s t with
  | nil => exact h
  | cons b rest ih =>
    rw [CtcpState.admitLoop, CtcpState.admitLoop, h.window, h.sliding]
    split
    · refine ih ⟨h.rtProp, h.bandwidth, h.inflight, h.window, ?_, ?_, rfl⟩
      · exact congrArg (· + b.segment.len) h.sliding
      · exact congrArg (· ++ [b]) h.unacknowledged
    · exact h

section

variable (s : CtcpState) (b : Buf) (window : UInt16)

/-- The state behind the admission loop of the first turn, as far as the
estimates do not matter. -/
def CtcpState.refilled : CtcpState := (s.withoutFront b window).admitPending

theorem filled_estimating (env : Env) (rtProp : Int) (inflight : UInt32) :
    SameRoom rtProp (inflight - b.segment.len.toUInt32) (s.refilled b window)
      (Turn.filled env (s.estimating rtProp window inflight, b)) := by
  have removed := removed_estimating s b rtProp window inflight env
  rw [refilled, Turn.filled, admitPending, admitPending, removed.pending]
  exact removed.admitLoop _

theorem refilled_unacknowledged :
    (s.refilled b window).unacknowledgedSegments = s.unacknowledgedSegments.tail ++
      admitted window (s.slidingWindowSizeBytes - b.segment.len) s.outputPendingSegments :=
  admitLoop_unacknowledged _ _

end

/-! ## The first turn -/

/-- An ACK that reaches the front segment makes a turn of it. -/
theorem receiveTurns_turn (env : Env) {s : CtcpState} {seg : CtcpSegment} {b : Buf}
    {rest : List Buf} (reaches : s.ReachesAck seg) (ack : seg.hasFlag thAck)
    (queue : s.unacknowledgedSegments = b :: rest) (reached : b.ReachedBy seg.ackno) :
    s.receiveTurns env seg = (s, b) :: (if Turn.LeavesAt env (s, b) then []
        else (Turn.after env (s, b)).ackTurns env seg.ackno
          (rest ++ s.outputPendingSegments).length) ∧
      s.processAck env seg = if Turn.LeavesAt env (s, b) then (Turn.after env (s, b), true)
        else (Turn.after env (s, b)).ackLoop env seg.ackno
          (rest ++ s.outputPendingSegments).length := by
  have size : s.sendQueue.length = (rest ++ s.outputPendingSegments).length + 1 := by
    rw [sendQueue, queue, List.cons_append, List.length_cons]
  rw [receiveTurns, if_pos ⟨reaches, ack⟩, processAck, if_pos ack, size]
  exact ackLoop_turn env _ queue reached

/-- The queues are as the ACK part leaves them. -/
theorem receive_queues (env : Env) {s : CtcpState} {seg : CtcpSegment}
    (reaches : s.ReachesAck seg) :
    (s.receive env seg).unacknowledgedSegments =
        (s.processAck env seg).1.unacknowledgedSegments ∧
      (s.receive env seg).outputPendingSegments =
        (s.processAck env seg).1.outputPendingSegments := by
  rw [receive, if_neg reaches.1, if_neg reaches.2]
  dsimp only
  split
  · exact ⟨rfl, rfl⟩
  · obtain ⟨unacknowledged, pending, -⟩ := processData_frame env (s.processAck env seg).1 seg
    exact ⟨unacknowledged, pending⟩

/-- A turn that leaves does not change the queue any more. -/
theorem Turn.after_leaves {turn : Turn} (leaves : turn.LeavesAt env) :
    (turn.after env).unacknowledgedSegments = (turn.filled env).unacknowledgedSegments := by
  rw [Turn.after, if_neg leaves.1, flush_eq]
  split
  · rfl
  · rename_i room
    rw [if_pos (leaves.2.resolve_left room)]

/-- Where segments are pending the queue behind a turn is the one behind its
admission loop, but for the marks. -/
theorem Turn.after_pending (env : Env) (turn : Turn) (pending : turn.1.outputPendingSegments ≠ []) :
    (turn.after env).unacknowledgedSegments.map Buf.segment =
      (turn.filled env).unacknowledgedSegments.map Buf.segment := by
  have some : (turn.removed env).outputPendingSegments ≠ [] :=
    (Turn.removed_pending env turn).symm ▸ pending
  rw [Turn.after, if_neg some]
  exact (flush_spec env (turn.filled env)).2.1

theorem Turn.filled_unacknowledged (env : Env) (turn : Turn) :
    (turn.filled env).unacknowledgedSegments = turn.1.unacknowledgedSegments.tail ++
      admitted (turn.1.measure env turn.2).sendWindow
        (turn.1.slidingWindowSizeBytes - turn.2.segment.len) turn.1.outputPendingSegments := by
  obtain ⟨_, _, _, _, _, _, _, measured⟩ := tuned_measure env turn.1 turn.2
  rw [Turn.filled, admitPending, admitLoop_unacknowledged, Turn.removed_pending, Turn.removed,
    removeFront, log, measured]

/-! ## The bandwidth-delay product -/

section

variable (ieee : env.float.Ieee) {t : CtcpState}

include ieee

/-- A product of 1 makes `bdp` one of 2, 3 and 4. -/
theorem bdp_one (rtProp : t.bbr.rtProp = 1) (bandwidth : t.bbr.bottleneckBandwidth = 1) :
    2 ≤ t.bdp env ∧ t.bdp env ≤ 4 := by
  have two : env.float.double 2 = 2 := ieee.double_intCast (n := 2) (by decide)
  have four : env.float.double 4 = 4 := ieee.double_intCast (n := 4) (by decide)
  have between {q : ℚ} (low : 2 ≤ q) (high : q ≤ 4) :
      2 ≤ env.float.double q ∧ env.float.double q ≤ 4 :=
    ⟨two ▸ ieee.double_mono low, four ▸ ieee.double_mono high⟩
  have gain := between (q := 289 / 100) (by norm_num) (by norm_num)
  have product := between gain.1 gain.2
  have one : env.float.double ((1 * 1 : Int) : ℚ) = 1 := by
    simpa using ieee.double_intCast (n := 1) (by decide)
  have whole : t.bdp env = toInt (env.float.double (env.float.double (289 / 100))) := by
    rw [bdp, rtProp, bandwidth, one, one_mul, gain289]
  have low : 2 ≤ ⌊env.float.double (env.float.double (289 / 100))⌋ := Int.le_floor.mpr product.1
  have high : ⌊env.float.double (env.float.double (289 / 100))⌋ ≤ 4 :=
    Int.le_of_lt_add_one (Int.floor_lt.mpr (lt_of_le_of_lt product.2 (by norm_num)))
  rw [whole, toInt, trunc_of_nonneg (le_trans (by norm_num) product.1), if_pos (by omega)]
  exact ⟨low, high⟩

/-- A product of 0 makes it 0. -/
theorem bdp_zero (rtProp : t.bbr.rtProp = 0) : t.bdp env = 0 := by
  have zero : env.float.double 0 = 0 := by simpa using ieee.double_intCast (n := 0) (by decide)
  rw [bdp, rtProp, Int.zero_mul, Int.cast_zero, zero, zero_mul, zero]
  decide

end

/-! ## Estimates that decide a turn -/

section

variable {s : CtcpState} {b : Buf} {window : UInt16} (ieee : env.float.Ieee)

include ieee

/-- The first turn leaves, with more in flight than a product of 1 allows. -/
theorem leavesAt_estimating (pending : s.outputPendingSegments ≠ []) :
    Turn.LeavesAt env (s.estimating 1 window (b.segment.len.toUInt32 + 4), b) := by
  have room := filled_estimating s b window env 1 (b.segment.len.toUInt32 + 4)
  obtain ⟨low, high⟩ := bdp_one ieee room.rtProp room.bandwidth
  refine ⟨(Turn.removed_pending env _).symm ▸ pending, .inl ⟨?_, by omega⟩⟩
  have four : b.segment.len.toUInt32 + 4 - b.segment.len.toUInt32 = 4 := by
    rw [UInt32.add_comm, UInt32.add_sub_cancel]
  rw [room.inflight, four, ge_iff_le, UInt32.le_iff_toNat_le]
  have word := toNat_ofInt32 ((Turn.filled env
    (s.estimating 1 window (b.segment.len.toUInt32 + 4), b)).bdp env)
  have max : (4 : UInt32).toNat = 4 := rfl
  omega

/-- The first turn goes on, with a product of 0 and not all of the window in
flight. -/
theorem goesOn_estimating :
    ¬ Turn.LeavesAt env (s.estimating 0 window
      (b.segment.len.toUInt32 + ((s.refilled b window).slidingWindowSizeBytes.toUInt32 + 1)),
      b) := by
  have room := filled_estimating s b window env 0
    (b.segment.len.toUInt32 + ((s.refilled b window).slidingWindowSizeBytes.toUInt32 + 1))
  rintro ⟨-, full | ⟨-, all⟩⟩
  · exact full.2 (bdp_zero ieee room.rtProp)
  · rw [room.inflight, room.sliding, UInt32.add_comm b.segment.len.toUInt32,
      UInt32.add_sub_cancel] at all
    have more : (s.refilled b window).slidingWindowSizeBytes.toUInt32 -
        ((s.refilled b window).slidingWindowSizeBytes.toUInt32 + 1) = -1 := by
      grind
    rw [more] at all
    exact absurd all (by decide)

/-- Where the ACK loop comes to the `return`s, there are estimates with which
its only turn takes one. -/
theorem leaves_of_not_avoids {seg : CtcpSegment} (reaches : s.ReachesAck seg)
    (comes : ¬ s.AvoidsReturns seg) :
    ∃ t, s.SameButEstimates t ∧
      ∃ turn, t.receiveTurns env seg = [turn] ∧ Turn.LeavesAt env turn := by
  rw [AvoidsReturns] at comes
  push Not at comes
  obtain ⟨ack, pending, b, front, reached⟩ := comes
  obtain ⟨rest, queue⟩ := List.head?_eq_some_iff.mp front
  let t := s.estimating 1 0 (b.segment.len.toUInt32 + 4)
  have leaves : Turn.LeavesAt env (t, b) := leavesAt_estimating ieee pending
  refine ⟨t, sameButEstimates_estimating s 1 0 _, (t, b), ?_, leaves⟩
  rw [(receiveTurns_turn env (s := t) reaches ack queue reached).1, if_pos leaves]

end

end NetLabs.Ctcp
