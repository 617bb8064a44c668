/-
NetLabs.Ctcp.Stranding — pending data and what it waits for.

Pending segments move on only when the admission loop runs: when another
segment is queued, and when an ACK removes a segment. Data that is pending
while nothing is unacknowledged therefore waits for nothing.

The admission loop lets a segment in while `sliding_window_size_bytes` is
below `send_window`. With nothing unacknowledged the counter should be zero.
It is not: the timer has taken off it, modulo 2^16, the length of whatever it
retransmitted (`idleSliding`). And `send_window` is the low half of the BBR
`cwnd`, which is zero for a slow enough path (`zero_window_strands`).
`Admits` says that neither stands in the way. Data is stranded exactly by a
call that runs the admission loop where it does not hold (`pending_waits`).
-/
import NetLabs.Ctcp.Accounting
import NetLabs.Ctcp.AckHonesty

namespace NetLabs.Ctcp

open NetLabs.Lib

variable {env : Env}

/-! ## The condition -/

/-- The bytes an action sent again. -/
def Event.resentBytes : Event → Nat
  | .retransmitted b => b.segment.len.toNat
  | _ => 0

namespace CtcpState

/-- The bytes the timer has retransmitted, headers included. -/
def resentBytes (s : CtcpState) : Nat := (s.trace.map Event.resentBytes).sum

/-- What `sliding_window_size_bytes` is when nothing is unacknowledged. -/
def idleSliding (s : CtcpState) : Nat := (65536 - s.resentBytes % 65536) % 65536

/-- An empty window is below `send_window`. -/
def Admits (s : CtcpState) : Prop :=
  s.unacknowledgedSegments = [] → s.idleSliding < s.sendWindow.toNat

instance (s : CtcpState) : Decidable s.Admits := inferInstanceAs (Decidable (_ → _))

/-- Pending data waits behind an unacknowledged segment. -/
def Waits (s : CtcpState) : Prop :=
  s.outputPendingSegments ≠ [] → s.unacknowledgedSegments ≠ []

instance (s : CtcpState) : Decidable s.Waits := inferInstanceAs (Decidable (_ → _))

/-- `Q` holds whenever the ACK loop comes to its admission loop. -/
def AckAdmissions (env : Env) (Q : CtcpState → Prop) (ackno : UInt32) : Nat → CtcpState → Prop
  | 0, _ => True
  | fuel + 1, s =>
      match s.unacknowledgedSegments with
      | [] => True
      | b :: rest =>
          b.segment.seqno < ackno →
            let s := (s.measure env b).removeFront b rest
            if s.outputPendingSegments = [] then AckAdmissions env Q ackno fuel s
            else
              let r := s.admitPending.flush env
              Q s ∧ (r.2 = false → AckAdmissions env Q ackno fuel r.1)

/-- `Q` holds whenever a call comes to an admission loop. -/
def Admissions (env : Env) (Q : CtcpState → Prop) (s : CtcpState) : Op → Prop
  | .send data flags => Q (s.enqueue env data.1 flags)
  | .receive seg => s.ReachesAck seg → seg.hasFlag thAck →
      AckAdmissions env Q seg.ackno s.sendQueue.length s
  | .control _ | .timer => True

instance decidableAckAdmissions (env : Env) (Q : CtcpState → Prop) [DecidablePred Q]
    (ackno : UInt32) : (fuel : Nat) → (s : CtcpState) →
      Decidable (AckAdmissions env Q ackno fuel s)
  | 0, _ => inferInstanceAs (Decidable True)
  | fuel + 1, s =>
      have := decidableAckAdmissions env Q ackno fuel
      match queue : s.unacknowledgedSegments with
      | [] => .isTrue (by rw [AckAdmissions, queue]; trivial)
      | b :: rest =>
          decidable_of_iff (b.segment.seqno < ackno →
            let s := (s.measure env b).removeFront b rest
            if s.outputPendingSegments = [] then AckAdmissions env Q ackno fuel s
            else
              let r := s.admitPending.flush env
              Q s ∧ (r.2 = false → AckAdmissions env Q ackno fuel r.1))
            (by rw [AckAdmissions, queue])

instance (env : Env) (Q : CtcpState → Prop) [DecidablePred Q] (s : CtcpState) :
    (op : Op) → Decidable (s.Admissions env Q op)
  | .send _ _ => inferInstanceAs (Decidable (Q _))
  | .receive _ => inferInstanceAs (Decidable (_ → _ → _))
  | .control _ | .timer => inferInstanceAs (Decidable True)

end CtcpState

/-! ## The counter -/

/-- `sliding_window_size_bytes` is off by what was retransmitted. -/
def SlidingInv (s : CtcpState) : Prop :=
  (s.slidingWindowSizeBytes.toNat + s.resentBytes) % 65536 =
    windowBytes s.unacknowledgedSegments % 65536

theorem SlidingInv.idle {s : CtcpState} (h : SlidingInv s) (empty : s.unacknowledgedSegments = []) :
    s.slidingWindowSizeBytes.toNat = s.idleSliding := by
  have hlt := s.slidingWindowSizeBytes.toNat_lt
  rw [SlidingInv, empty, windowBytes_nil] at h
  rw [CtcpState.idleSliding]
  omega

theorem slidingInv_init (block : Bbr) (config : CtcpConfig) :
    SlidingInv (ctcpInit env block config) := rfl

theorem slidingInv_enqueue (s : CtcpState) (data : List UInt8) (flags : Int) (h : SlidingInv s) :
    SlidingInv (s.enqueue env data flags) := by
  simpa [SlidingInv, CtcpState.enqueue, CtcpState.log, CtcpState.resentBytes,
    Event.resentBytes] using h

theorem slidingInv_micro {half : Half} {s t : CtcpState} (h : SlidingInv s)
    (hstep : Micro env half s t) : SlidingInv t := by
  rw [SlidingInv] at h ⊢
  cases hstep with
  | tune tuned =>
    obtain ⟨_, _, _, _, _, _, _, rfl⟩ := tuned
    exact h
  | control | output =>
    simpa [CtcpState.sendControl, CtcpState.log, CtcpState.resentBytes, Event.resentBytes] using h
  | limit | destroy | recordSeqno | fin => exact h
  | admitted pending room =>
    simp only [CtcpState.admitOne, CtcpState.log, CtcpState.resentBytes, Event.resentBytes,
      List.map_append, List.sum_append, List.map_cons, List.map_nil, List.sum_cons, List.sum_nil,
      windowBytes_append, windowBytes_cons, windowBytes_nil, UInt16.toNat_add] at h ⊢
    omega
  | transmit queue unsent =>
    simpa [CtcpState.transmitOne, CtcpState.log, CtcpState.markSent, CtcpState.resentBytes,
      Event.resentBytes, queue] using h
  | @remove _ b rest queue =>
    have hb := b.segment.len.toNat_lt
    simp only [CtcpState.removeFront, CtcpState.log, CtcpState.resentBytes, Event.resentBytes,
      List.map_append, List.sum_append, List.map_cons, List.map_nil, List.sum_cons, List.sum_nil,
      windowBytes_cons, queue, UInt16.toNat_sub] at h ⊢
    omega
  | @retransmit _ visited b rest queue due =>
    have hb := b.segment.len.toNat_lt
    simp only [CtcpState.retransmitOne, CtcpState.log, CtcpState.markResent,
      CtcpState.resentBytes, Event.resentBytes, List.map_append, List.sum_append, List.map_cons,
      List.map_nil, List.sum_cons, List.sum_nil, windowBytes_append, windowBytes_cons, queue,
      UInt16.toNat_sub] at h ⊢
    omega

theorem slidingInv_sends {s t : CtcpState} (h : SlidingInv s) (hsends : Sends env s t) :
    SlidingInv t :=
  chain_invariant SlidingInv (fun hu hstep => slidingInv_micro hu hstep) hsends h

/-! ## The admission loop and the transmission loop -/

/-- The transmission loop changes no queue but for the marks. -/
theorem transmitLoop_queues (visited rest : List Buf) (s : CtcpState)
    (h : s.unacknowledgedSegments = visited ++ rest) :
    let t := CtcpState.transmitLoop env visited rest s
    t.outputPendingSegments = s.outputPendingSegments ∧
      (t.unacknowledgedSegments = [] ↔ s.unacknowledgedSegments = []) := by
  obtain ⟨-, segments, pending⟩ := transmitLoop_spec env visited rest s h
  have lengths := congrArg List.length segments
  rw [List.length_map, List.length_map] at lengths
  refine ⟨pending, ?_⟩
  rw [← List.length_eq_zero_iff, lengths, List.length_eq_zero_iff]

theorem flush_queues (env : Env) (s : CtcpState) :
    (s.flush env).1.outputPendingSegments = s.outputPendingSegments ∧
      ((s.flush env).1.unacknowledgedSegments = [] ↔ s.unacknowledgedSegments = []) := by
  rw [CtcpState.flush]
  split
  · exact ⟨rfl, Iff.rfl⟩
  · split
    · exact ⟨rfl, Iff.rfl⟩
    · exact transmitLoop_queues [] _ s rfl

/-- The retransmission loop leaves what is pending, and unacknowledged segments
if there were any. -/
theorem retransmitLoop_queues (visited rest : List Buf) (s : CtcpState)
    (h : s.unacknowledgedSegments = visited ++ rest) :
    let t := CtcpState.retransmitLoop env visited rest s
    t.outputPendingSegments = s.outputPendingSegments ∧
      (t.unacknowledgedSegments = [] ↔ s.unacknowledgedSegments = []) := by
  induction rest generalizing visited s with
  | nil => exact ⟨rfl, Iff.rfl⟩
  | cons b rest ih =>
    rw [CtcpState.retransmitLoop]
    split
    · have resent : (s.retransmitOne env visited b rest).unacknowledgedSegments = [] ↔
          s.unacknowledgedSegments = [] := by
        simp [CtcpState.retransmitOne, CtcpState.log, h]
      split
      · exact ⟨rfl, resent⟩
      · have turn := ih (visited ++ [s.markResent env b]) (s.retransmitOne env visited b rest)
          (by simp [CtcpState.retransmitOne, CtcpState.log])
        exact ⟨turn.1, turn.2.trans resent⟩
    · split
      · exact ⟨rfl, Iff.rfl⟩
      · exact ih (visited ++ [b]) { s with ticks := s.ticks + 1 } (by simp [h])

/-- The admission loop removes no segment. -/
theorem admitLoop_nonempty (bs : List Buf) (s : CtcpState)
    (h : s.unacknowledgedSegments ≠ []) :
    (CtcpState.admitLoop bs s).unacknowledgedSegments ≠ [] := by
  induction bs generalizing s with
  | nil => exact h
  | cons b rest ih =>
    rw [CtcpState.admitLoop]
    split
    · exact ih _ (by simp [CtcpState.admitOne, CtcpState.log])
    · exact h

/-- The admission loop leaves data waiting for something exactly if it admits
a segment into an empty window. -/
theorem waits_admit_iff (env : Env) {s : CtcpState} (inv : SlidingInv s)
    (pending : s.outputPendingSegments ≠ []) : (s.admitPending.flush env).1.Waits ↔ s.Admits := by
  obtain ⟨samePending, sameEmpty⟩ := flush_queues env s.admitPending
  rw [CtcpState.Waits, ne_eq, ne_eq, samePending, sameEmpty]
  by_cases empty : s.unacknowledgedSegments = []
  · obtain ⟨b, rest, hb⟩ := List.exists_cons_of_ne_nil pending
    have room : s.slidingWindowSizeBytes < s.sendWindow ↔ s.idleSliding < s.sendWindow.toNat := by
      rw [UInt16.lt_iff_toNat_lt, inv.idle empty]
    rw [CtcpState.Admits, forall_prop_of_true empty, ← room, CtcpState.admitPending, hb,
      CtcpState.admitLoop]
    by_cases h : s.slidingWindowSizeBytes < s.sendWindow
    · rw [if_pos h]
      refine iff_of_true (fun _ => ?_) h
      exact admitLoop_nonempty rest _ (by simp [CtcpState.admitOne, CtcpState.log])
    · rw [if_neg h]
      exact iff_of_false (fun general => general (by simp [hb]) empty) h
  · exact iff_of_true (fun _ => admitLoop_nonempty _ s empty) fun h => absurd h empty

/-! ## The calls -/

/-- The queues of a state in which data is stranded stay as they are. -/
theorem ackLoop_stranded (ackno : UInt32) (fuel : Nat) {s : CtcpState} (h : ¬ s.Waits) :
    (CtcpState.ackLoop env ackno fuel s).1 = s := by
  have empty : s.unacknowledgedSegments = [] := by
    by_contra hne
    exact h fun _ => hne
  cases fuel with
  | zero => rfl
  | succ fuel => rw [CtcpState.ackLoop, empty]

/-- The ACK loop strands no data if all its admissions are into a window that
admits, and only then. -/
theorem waits_ackLoop_iff (ackno : UInt32) (fuel : Nat) {s : CtcpState} (inv : SlidingInv s)
    (waits : s.Waits) :
    (CtcpState.ackLoop env ackno fuel s).1.Waits ↔
      s.AckAdmissions env CtcpState.Admits ackno fuel := by
  induction fuel generalizing s with
  | zero => exact iff_of_true waits trivial
  | succ fuel ih =>
    rw [CtcpState.ackLoop, CtcpState.AckAdmissions]
    cases queue : s.unacknowledgedSegments with
    | nil => exact iff_of_true waits trivial
    | cons b rest =>
      dsimp only
      by_cases covered : b.segment.seqno < ackno
      · rw [if_pos covered, forall_prop_of_true covered]
        have removed : SlidingInv ((s.measure env b).removeFront b rest) :=
          slidingInv_sends inv (removeFront_sends queue)
        by_cases pending : ((s.measure env b).removeFront b rest).outputPendingSegments = []
        · rw [if_pos pending, if_pos pending]
          exact ih removed fun h => absurd pending h
        · rw [if_neg pending, if_neg pending]
          have flushed := slidingInv_sends removed
            ((admitPending_sends _).trans (flush_sends env _))
          rw [← waits_admit_iff env removed pending]
          generalize (CtcpState.admitPending _).flush env = r at flushed ⊢
          by_cases still : r.1.Waits
          · cases returned : r.2 with
            | true => simp [still]
            | false => simpa [still] using ih flushed still
          · refine iff_of_false ?_ fun h => still h.1
            split
            · exact still
            · rwa [ackLoop_stranded ackno fuel still]
      · rw [if_neg covered]
        exact iff_of_true waits fun h => absurd h covered

theorem waits_receive_iff {s : CtcpState} (seg : CtcpSegment) (inv : SlidingInv s)
    (waits : s.Waits) :
    (s.receive env seg).Waits ↔ s.Admissions env CtcpState.Admits (.receive seg) := by
  have same (t : CtcpState) : (t.processData env seg).Waits ↔ t.Waits := by
    obtain ⟨queue, pending, -, -⟩ := processData_frame env t seg
    rw [CtcpState.Waits, queue, pending, CtcpState.Waits]
  rw [CtcpState.receive, CtcpState.Admissions]
  by_cases fin : seg.hasFlag thFin ∧ s.connectionState = 0
  · rw [if_pos fin]
    exact iff_of_true waits fun reaches => absurd fin reaches.1
  rw [if_neg fin]
  by_cases closed : s.connectionState = 1
  · rw [if_pos closed]
    exact iff_of_true waits fun reaches => absurd closed reaches.2
  rw [if_neg closed, forall_prop_of_true ⟨fin, closed⟩]
  have part : (s.processAck env seg).1.Waits ↔ (seg.hasFlag thAck →
      s.AckAdmissions env CtcpState.Admits seg.ackno s.sendQueue.length) := by
    rw [CtcpState.processAck]
    split
    · rename_i ack
      rw [forall_prop_of_true ack]
      exact waits_ackLoop_iff _ _ inv waits
    · rename_i ack
      exact iff_of_true waits fun h => absurd h ack
  rw [← part]
  dsimp only
  split
  · exact Iff.rfl
  · exact same _

/-- A call strands no data if its admissions are into a window that admits,
and only then. -/
theorem waits_apply_iff {s : CtcpState} (op : Op) (inv : SlidingInv s) (waits : s.Waits) :
    (s.apply env op).Waits ↔ s.Admissions env CtcpState.Admits op := by
  cases op with
  | send data flags =>
    rw [CtcpState.apply, CtcpState.sendSegment, if_pos rfl]
    exact waits_admit_iff env (slidingInv_enqueue s data.1 flags inv)
      (by simp [CtcpState.enqueue, CtcpState.log])
  | control flags => exact iff_of_true waits trivial
  | receive seg => exact waits_receive_iff seg inv waits
  | timer =>
    refine iff_of_true ?_ trivial
    obtain ⟨pending, empty⟩ := retransmitLoop_queues [] _ (s.timerBbr env) rfl
    have tuned : Tuned s (s.timerBbr env) := tuned_timerBbr s
    rw [CtcpState.apply, CtcpState.timer, CtcpState.Waits, pending, ne_eq, ne_eq, empty,
      tuned.outputPendingSegments, tuned.unacknowledgedSegments]
    exact waits

/-- **No stranded data.** In every run in which the admission loop, whenever
it runs with nothing unacknowledged, finds `send_window` above the counter,
pending data waits behind an unacknowledged segment. The next call leaves it
so exactly if it goes on like that. -/
theorem pending_waits {block : Bbr} {config : CtcpConfig} {ops : List Op} {s : CtcpState}
    (h : Run (Guarded (Step env) (CtcpState.Admissions env CtcpState.Admits))
      (ctcpInit env block config) ops s) :
    (s.outputPendingSegments ≠ [] → s.unacknowledgedSegments ≠ []) ∧
      ∀ op t, Step env s op t →
        ((t.outputPendingSegments ≠ [] → t.unacknowledgedSegments ≠ []) ↔
          s.Admissions env CtcpState.Admits op) := by
  have sliding : ∀ {ops s}, Run (Step env) (ctcpInit env block config) ops s → SlidingInv s :=
    fun hrun => run_invariant SlidingInv (fun s data flags => slidingInv_enqueue s data.1 flags)
      slidingInv_micro
      (slidingInv_init block config) hrun
  have waits : s.Waits := by
    refine Run.history (fun _ s => s.Waits) nofun (fun hrun waits hstep => ?_) h
    obtain ⟨⟨-, rfl⟩, admits⟩ := hstep
    exact (waits_apply_iff _ (sliding hrun.unguarded) waits).mpr admits
  refine ⟨waits, fun op t hstep => ?_⟩
  obtain ⟨-, rfl⟩ := hstep
  exact waits_apply_iff op (sliding h.unguarded) waits

/-- A window of 22 bytes: the third byte waits until the first is
acknowledged. -/
theorem pending_waits_slow_path :
    let s := (ctcpInit (.plain .little) .cleared ⟨22, 200⟩).applyAll (.plain .little)
      [.send ⟨[97], by decide⟩ 16, .send ⟨[98], by decide⟩ 16, .send ⟨[99], by decide⟩ 16]
    (s.outputPendingSegments ≠ [] → s.unacknowledgedSegments ≠ []) ∧
      ∀ op t, Step (.plain .little) s op t →
        ((t.outputPendingSegments ≠ [] → t.unacknowledgedSegments ≠ []) ↔
          s.Admissions (.plain .little) CtcpState.Admits op) :=
  pending_waits
    (run_foldl
      (fun s op => decide (s.alive = true ∧ s.Admissions (.plain .little) CtcpState.Admits op))
      (fun _ _ h => ⟨⟨(of_decide_eq_true h).1, rfl⟩, (of_decide_eq_true h).2⟩)
      (by decide +kernel))

/-- The first of two segments comes back after two seconds, which is less
than one byte in a millisecond: the window becomes 0, and the second stays. -/
theorem zero_window_strands :
    ¬ ∀ (ops : List Op) (s : CtcpState),
      Run (Step (.plain .little)) (.fresh (.plain .little)) ops s → s.alive = true →
        s.outputPendingSegments ≠ [] → s.unacknowledgedSegments ≠ [] := by
  intro general
  have h := general [.send ⟨List.replicate 1440 97, List.length_replicate.le⟩ 16,
      .send ⟨[98], by decide⟩ 16, .receive ⟨1, 1441, 20, thAck, 1440, 0, []⟩] _
    (run_applyAll (by decide +kernel))
  revert h
  decide +kernel

end NetLabs.Ctcp
