/-
NetLabs.Ctcp.Steps — the elementary steps of a connection, and its runs.

`Micro` lists what the loops of `lab3/ctcp.c` do to the state, one
constructor for each elementary update, with the guard under which the code
does it. Every function of `Endpoint.lean` is a chain of these
(`sendSegment_sends`, `receive_micro`, `timer_sends`), so an invariant is
checked once per elementary update and never against a loop. An update
belongs to the sending or to the receiving half of the connection; everything
but `ctcp_receive` is a chain of sending updates alone. `enqueue` stands
outside `Micro`: appending a new segment to the send queue is what a call of
`send_segment` with `req_ack` starts with, and nothing else does it.

`Op` is a call the connection receives from outside, `Step` its effect on a
live connection, and `run_invariant` the rule by which an invariant of the
elementary steps holds in every state of every run.
-/
import NetLabs.Lib.Lts
import NetLabs.Ctcp.Endpoint

namespace NetLabs.Ctcp

open NetLabs.Lib Relation

variable {env : Env}

/-! ## A visit of the timer -/

/-- The state in which `ctcp_timer` looks at the countdown. -/
def CtcpState.countDown (env : Env) (s : CtcpState) : CtcpState :=
  let s := if s.lastCtcpTimerCall = 0 then
      { s with lastCtcpTimerCall := UInt32.ofInt (env.clock s.ticks), ticks := s.ticks + 1 }
    else s
  if s.bbr.rttMinimumCheckForWindowMs > 0 then
    { s with
      bbr := { s.bbr with
        rttMinimumCheckForWindowMs := s.bbr.rttMinimumCheckForWindowMs -
          (env.clock s.ticks - s.lastCtcpTimerCall.toNat) }
      lastCtcpTimerCall := UInt32.ofInt (env.clock (s.ticks + 1))
      ticks := s.ticks + 2 }
  else s

theorem CtcpState.timerBbr_eq (s : CtcpState) :
    s.timerBbr env =
      if (s.countDown env).bbr.rttMinimumCheckForWindowMs < 0 then
        (s.countDown env).checkRtProp env
      else s.countDown env := rfl

section Relation

variable (R : CtcpState → CtcpState → Prop) (refl : ∀ s, R s s)
  (trans : ∀ {s t u}, R s t → R t u → R s u)
  (stamp : ∀ (s : CtcpState) last ticks, R s { s with lastCtcpTimerCall := last, ticks })
  (count : ∀ (s : CtcpState) rest last ticks, R s { s with
    bbr := { s.bbr with rttMinimumCheckForWindowMs := rest }, lastCtcpTimerCall := last, ticks })

include refl trans stamp count

/-- A relation that holds along each assignment before the block of the timer
holds along all of them. -/
theorem countDown_relation (s : CtcpState) : R s (s.countDown env) := by
  rw [CtcpState.countDown]
  by_cases unset : s.lastCtcpTimerCall = 0
  · simp only [if_pos unset]
    split
    · exact trans (stamp s _ _) (count _ _ _ _)
    · exact stamp s _ _
  · simp only [if_neg unset]
    split
    · exact count s _ _ _
    · exact refl s

/-- A relation that holds along these assignments and along the block holds along
the visit. -/
theorem timerBbr_relation (check : ∀ s, R s (s.checkRtProp env)) (s : CtcpState) :
    R s (s.timerBbr env) := by
  have counted : R s (s.countDown env) := countDown_relation R refl trans stamp count s
  rw [CtcpState.timerBbr_eq]
  split
  · exact trans counted (check _)
  · exact counted

end Relation

/-- The timer makes at most four readings before its loop. -/
theorem timerBbr_ticks (env : Env) (s : CtcpState) :
    s.ticks ≤ (s.timerBbr env).ticks ∧ (s.timerBbr env).ticks ≤ s.ticks + 4 := by
  have counted : s.ticks ≤ (s.countDown env).ticks ∧ (s.countDown env).ticks ≤ s.ticks + 3 := by
    rw [CtcpState.countDown]
    dsimp only
    split_ifs <;> (simp; try omega)
  have checked : ((s.countDown env).checkRtProp env).ticks = (s.countDown env).ticks + 1 := rfl
  rw [CtcpState.timerBbr_eq]
  split <;> omega

/-! ## Elementary steps -/

/-- The second state differs from the first in measurements only: the BBR
record, the windows computed from it, the RTT and bandwidth records and the
clock. -/
def Tuned (s t : CtcpState) : Prop :=
  ∃ bbr configSendWindow sendWindow lastCtcpTimerCall minimumRttCaptured
      maximumBandwidthCaptured ticks,
    t = { s with
      bbr, configSendWindow, sendWindow, lastCtcpTimerCall, minimumRttCaptured
      maximumBandwidthCaptured, ticks }

/-- The half of a connection an update belongs to: what is sent and what is
awaited to be acknowledged, or what is received and given to the application. -/
inductive Half where
  | sending
  | receiving

/-- An elementary update of a connection other than queueing a segment. -/
inductive Micro (env : Env) : Half → CtcpState → CtcpState → Prop where
  | control (s : CtcpState) (flags : Int) : Micro env .sending s (s.sendControl env [] flags)
  | admitted {s : CtcpState} {b : Buf} {rest : List Buf}
      (pending : s.outputPendingSegments = b :: rest)
      (room : s.slidingWindowSizeBytes < s.sendWindow) :
      Micro env .sending s (s.admitOne b rest)
  | limit {s : CtcpState} (pending : s.outputPendingSegments = [])
      (all : s.slidingWindowSizeBytes.toUInt32 - s.inflightData = 0) :
      Micro env .sending s { s with appLimitedUntil := s.inflightData }
  | transmit {s : CtcpState} {visited : List Buf} {b : Buf} {rest : List Buf}
      (queue : s.unacknowledgedSegments = visited ++ b :: rest) (unsent : b.sent = 0) :
      Micro env .sending s (s.transmitOne env visited b rest)
  | remove {s : CtcpState} {b : Buf} {rest : List Buf}
      (queue : s.unacknowledgedSegments = b :: rest) :
      Micro env .sending s (s.removeFront b rest)
  | destroy (s : CtcpState) : Micro env .sending s s.destroy
  | tune {s t : CtcpState} (h : Tuned s t) : Micro env .sending s t
  | retransmit {s : CtcpState} {visited : List Buf} {b : Buf} {rest : List Buf}
      (queue : s.unacknowledgedSegments = visited ++ b :: rest) (due : s.isDue env b) :
      Micro env .sending s (s.retransmitOne env visited b rest)
  | recordSeqno (s : CtcpState) (seg : CtcpSegment) :
      Micro env .receiving s (s.recordSeqno seg)
  | output (s : CtcpState) (data : List UInt8) :
      Micro env .receiving s (s.log (.output data))
  | fin (s : CtcpState) : Micro env .receiving s { s with connectionState := 1 }

/-- A chain of updates of the sending half. -/
abbrev Sends (env : Env) : CtcpState → CtcpState → Prop := ReflTransGen (Micro env .sending)

/-- A chain of elementary updates. -/
abbrev Micros (env : Env) : CtcpState → CtcpState → Prop :=
  ReflTransGen fun s t => ∃ half, Micro env half s t

theorem Sends.micros {s t : CtcpState} (h : Sends env s t) : Micros env s t :=
  ReflTransGen.mono (fun _ _ hstep => ⟨_, hstep⟩) _ _ h

theorem Tuned.trans {s t u : CtcpState} (h : Tuned s t) (h' : Tuned t u) : Tuned s u := by
  obtain ⟨_, _, _, _, _, _, _, rfl⟩ := h
  obtain ⟨_, _, _, _, _, _, _, rfl⟩ := h'
  exact ⟨_, _, _, _, _, _, _, rfl⟩

section Tuned

variable {s t : CtcpState}

theorem Tuned.unacknowledgedSegments (h : Tuned s t) :
    t.unacknowledgedSegments = s.unacknowledgedSegments := by
  obtain ⟨_, _, _, _, _, _, _, rfl⟩ := h
  rfl

theorem Tuned.outputPendingSegments (h : Tuned s t) :
    t.outputPendingSegments = s.outputPendingSegments := by
  obtain ⟨_, _, _, _, _, _, _, rfl⟩ := h
  rfl

theorem Tuned.rtTimeout (h : Tuned s t) : t.rtTimeout = s.rtTimeout := by
  obtain ⟨_, _, _, _, _, _, _, rfl⟩ := h
  rfl

theorem Tuned.alive (h : Tuned s t) : t.alive = s.alive := by
  obtain ⟨_, _, _, _, _, _, _, rfl⟩ := h
  rfl

theorem Tuned.trace (h : Tuned s t) : t.trace = s.trace := by
  obtain ⟨_, _, _, _, _, _, _, rfl⟩ := h
  rfl

end Tuned

theorem tuned_tick (s : CtcpState) : Tuned s { s with ticks := s.ticks + 1 } :=
  ⟨_, _, _, _, _, _, _, rfl⟩

theorem tuned_recordRtt (s : CtcpState) (rtt : Int) : Tuned s (s.recordRtt rtt) := by
  rw [CtcpState.recordRtt]
  split_ifs <;> exact ⟨_, _, _, _, _, _, _, rfl⟩

theorem tuned_recordBandwidth (s : CtcpState) (b : Buf) (rtt : Int) :
    Tuned s (s.recordBandwidth env b rtt) := by
  rw [CtcpState.recordBandwidth]
  split_ifs <;> exact ⟨_, _, _, _, _, _, _, rfl⟩

theorem tuned_measure (env : Env) (s : CtcpState) (b : Buf) : Tuned s (s.measure env b) :=
  (((tuned_tick s).trans (tuned_recordRtt _ _)).trans (tuned_recordBandwidth _ _ _)).trans
    ⟨_, _, _, _, _, _, _, rfl⟩

theorem tuned_timerBbr (s : CtcpState) : Tuned s (s.timerBbr env) := by
  apply timerBbr_relation Tuned (fun _ => ⟨_, _, _, _, _, _, _, rfl⟩) .trans
  case stamp => exact fun _ _ _ => ⟨_, _, _, _, _, _, _, rfl⟩
  case count => exact fun _ _ _ _ => ⟨_, _, _, _, _, _, _, rfl⟩
  case check => exact fun _ => ⟨_, _, _, _, _, _, _, rfl⟩

/-! ## The functions are chains of elementary steps -/

theorem admitLoop_sends (bs : List Buf) (s : CtcpState) (h : s.outputPendingSegments = bs) :
    Sends env s (CtcpState.admitLoop bs s) := by
  induction bs generalizing s with
  | nil => exact .refl
  | cons b rest ih =>
    rw [CtcpState.admitLoop]
    split
    · rename_i room
      exact .head (.admitted h room) (ih _ rfl)
    · exact .refl

theorem admitPending_sends (s : CtcpState) : Sends env s s.admitPending :=
  admitLoop_sends _ s rfl

/-- The transmission loop transmits what was not sent, and changes no queue
but for its marks. -/
theorem transmitLoop_spec (env : Env) (visited rest : List Buf) (s : CtcpState)
    (queue : s.unacknowledgedSegments = visited ++ rest) :
    let t := CtcpState.transmitLoop env visited rest s
    t.trace = s.trace ++ (rest.filter (·.sent = 0)).map Event.transmitted ∧
      t.unacknowledgedSegments.map Buf.segment = s.unacknowledgedSegments.map Buf.segment ∧
      t.outputPendingSegments = s.outputPendingSegments := by
  induction rest generalizing visited s with
  | nil => exact ⟨(List.append_nil _).symm, rfl, rfl⟩
  | cons b rest ih =>
    rw [CtcpState.transmitLoop]
    by_cases unsent : b.sent = 0
    · rw [if_pos unsent]
      obtain ⟨trace, segments, pending⟩ := ih (visited ++ [s.markSent env b])
        (s.transmitOne env visited b rest) (by simp [CtcpState.transmitOne, CtcpState.log])
      refine ⟨?_, segments.trans ?_, pending⟩
      · rw [trace]
        simp [unsent, CtcpState.transmitOne, CtcpState.log]
      · simp [CtcpState.transmitOne, CtcpState.log, CtcpState.markSent, queue]
    · rw [if_neg unsent]
      obtain ⟨trace, segments, pending⟩ := ih (visited ++ [b]) s (by simp [queue])
      exact ⟨by simp [trace, unsent], segments, pending⟩

theorem transmitLoop_sends (visited rest : List Buf) (s : CtcpState)
    (h : s.unacknowledgedSegments = visited ++ rest) :
    Sends env s (CtcpState.transmitLoop env visited rest s) := by
  induction rest generalizing visited s with
  | nil => exact .refl
  | cons b rest ih =>
    rw [CtcpState.transmitLoop]
    split
    · rename_i unsent
      exact .head (.transmit h unsent) (ih _ _ (by simp [CtcpState.transmitOne, CtcpState.log]))
    · exact ih _ _ (by simp [h])

theorem flush_sends (env : Env) (s : CtcpState) : Sends env s (s.flush env).1 := by
  rw [CtcpState.flush]
  split
  · exact .refl
  · split
    · rename_i h
      exact .single (.limit h.1 h.2)
    · exact transmitLoop_sends [] _ s rfl

/-- `send_segment` with `req_ack` queues the segment, and the rest is
elementary steps. -/
theorem sendSegment_sends (s : CtcpState) (data : List UInt8) (flags : Int) :
    Sends env (s.enqueue env data flags) (s.sendSegment env data flags true) := by
  rw [CtcpState.sendSegment, if_pos rfl]
  exact (admitPending_sends _).trans (flush_sends env _)

/-- A turn of the ACK loop takes the measurements and removes the front
segment. -/
theorem removeFront_sends {s : CtcpState} {b : Buf} {rest : List Buf}
    (queue : s.unacknowledgedSegments = b :: rest) :
    Sends env s ((s.measure env b).removeFront b rest) := by
  have tuned := tuned_measure env s b
  exact .head (.tune tuned) (.single (.remove (tuned.unacknowledgedSegments.trans queue)))

/-! ## Relations along the loops

A reflexive and transitive relation holds along a loop if it holds along one
turn of it. -/

theorem admitLoop_relation (R : CtcpState → CtcpState → Prop) (refl : ∀ s, R s s)
    (trans : ∀ {s t u}, R s t → R t u → R s u) (admits : ∀ s b rest, R s (s.admitOne b rest))
    (bs : List Buf) (s : CtcpState) : R s (CtcpState.admitLoop bs s) := by
  induction bs generalizing s with
  | nil => exact refl s
  | cons b rest ih =>
    rw [CtcpState.admitLoop]
    split
    · exact trans (admits s b rest) (ih _)
    · exact refl s

theorem transmitLoop_relation (R : CtcpState → CtcpState → Prop) (refl : ∀ s, R s s)
    (trans : ∀ {s t u}, R s t → R t u → R s u)
    (transmit : ∀ s visited b rest, R s (s.transmitOne env visited b rest))
    (visited rest : List Buf) (s : CtcpState) :
    R s (CtcpState.transmitLoop env visited rest s) := by
  induction rest generalizing visited s with
  | nil => exact refl s
  | cons b rest ih =>
    rw [CtcpState.transmitLoop]
    split
    · exact trans (transmit s visited b rest) (ih _ _)
    · exact ih _ s

/-- Admission, and the transmission that follows it. -/
theorem admitFlush_relation (R : CtcpState → CtcpState → Prop) (refl : ∀ s, R s s)
    (trans : ∀ {s t u}, R s t → R t u → R s u) (admits : ∀ s b rest, R s (s.admitOne b rest))
    (transmit : ∀ s visited b rest, R s (s.transmitOne env visited b rest))
    (limit : ∀ s, R s { s with appLimitedUntil := s.inflightData }) (s : CtcpState) :
    R s (s.admitPending.flush env).1 := by
  have admitted : R s s.admitPending := admitLoop_relation R refl trans admits _ s
  rw [CtcpState.flush]
  split
  · exact admitted
  · split
    · exact trans admitted (limit _)
    · exact trans admitted (transmitLoop_relation R refl trans transmit _ _ _)

theorem retransmitLoop_relation (R : CtcpState → CtcpState → Prop) (refl : ∀ s, R s s)
    (trans : ∀ {s t u}, R s t → R t u → R s u)
    (resend : ∀ s visited b rest, R s (s.retransmitOne env visited b rest))
    (destroy : ∀ s, R s s.destroy) (tick : ∀ s, R s { s with ticks := s.ticks + 1 })
    (visited rest : List Buf) (s : CtcpState) :
    R s (CtcpState.retransmitLoop env visited rest s) := by
  induction rest generalizing visited s with
  | nil => exact refl s
  | cons b rest ih =>
    have resent := resend s visited b rest
    rw [CtcpState.retransmitLoop]
    split
    · split
      · exact trans resent (destroy _)
      · exact trans resent (ih _ _)
    · split
      · exact trans (tick s) (destroy _)
      · exact trans (tick s) (ih _ _)

/-- A relation that holds along the removal of a segment, and along admission
and what follows it, holds along the ACK loop. -/
theorem ackLoop_relation (R : CtcpState → CtcpState → Prop) (refl : ∀ s, R s s)
    (trans : ∀ {s t u}, R s t → R t u → R s u)
    (remove : ∀ {s : CtcpState} {b : Buf} {rest : List Buf}, s.unacknowledgedSegments = b :: rest →
      R s ((s.measure env b).removeFront b rest))
    (flush : ∀ s, R s (s.admitPending.flush env).1) (ackno : UInt32) (fuel : Nat) (s : CtcpState) :
    R s (CtcpState.ackLoop env ackno fuel s).1 := by
  induction fuel generalizing s with
  | zero => exact refl s
  | succ fuel ih =>
    rw [CtcpState.ackLoop]
    split
    · exact refl s
    · rename_i b rest queue
      split
      · have removed := remove queue
        dsimp only
        split
        · exact trans removed (ih _)
        · have flushed := trans removed (flush _)
          split
          · exact flushed
          · exact trans flushed (ih _)
      · exact refl s

theorem ackLoop_sends (ackno : UInt32) (fuel : Nat) (s : CtcpState) :
    Sends env s (CtcpState.ackLoop env ackno fuel s).1 :=
  ackLoop_relation (Sends env) (fun _ => .refl) .trans removeFront_sends
    (fun s => (admitPending_sends s).trans (flush_sends env _)) ackno fuel s

/-- Such a relation holds along the ACK part of `ctcp_receive`. -/
theorem processAck_relation (R : CtcpState → CtcpState → Prop) (refl : ∀ s, R s s)
    (trans : ∀ {s t u}, R s t → R t u → R s u)
    (remove : ∀ {s : CtcpState} {b : Buf} {rest : List Buf}, s.unacknowledgedSegments = b :: rest →
      R s ((s.measure env b).removeFront b rest))
    (flush : ∀ s, R s (s.admitPending.flush env).1) (s : CtcpState) (seg : CtcpSegment) :
    R s (s.processAck env seg).1 := by
  rw [CtcpState.processAck]
  split
  · exact ackLoop_relation R refl trans remove flush _ _ s
  · exact refl s

theorem processAck_sends (env : Env) (s : CtcpState) (seg : CtcpSegment) :
    Sends env s (s.processAck env seg).1 :=
  processAck_relation (Sends env) (fun _ => .refl) .trans removeFront_sends
    (fun s => (admitPending_sends s).trans (flush_sends env _)) s seg

theorem processData_micro (s : CtcpState) (seg : CtcpSegment) :
    Micros env s (s.processData env seg) := by
  rw [CtcpState.processData]
  split
  · exact .head ⟨_, .recordSeqno s seg⟩ (.head ⟨_, .control _ _⟩ (.single ⟨_, .output _ _⟩))
  · exact .single ⟨_, .recordSeqno s seg⟩

/-- The data part leaves the queues and the connection as they are. -/
theorem processData_frame (env : Env) (s : CtcpState) (seg : CtcpSegment) :
    (s.processData env seg).unacknowledgedSegments = s.unacknowledgedSegments ∧
    (s.processData env seg).outputPendingSegments = s.outputPendingSegments ∧
    (s.processData env seg).connectionState = s.connectionState ∧
    (s.processData env seg).alive = s.alive := by
  rw [CtcpState.processData]
  split <;> exact ⟨rfl, rfl, rfl, rfl⟩

/-! ## The cases of `ctcp_receive` -/

section Receive

variable {s : CtcpState} {seg : CtcpSegment}

/-- A FIN on an open connection is answered, and signals the end. -/
theorem receive_fin (env : Env) (fin : seg.hasFlag thFin) (opened : s.connectionState = 0) :
    s.receive env seg =
      ({ s with connectionState := 1 }.sendSegment env [] thAck.toNat false).log (.output []) := by
  rw [CtcpState.receive, if_pos ⟨fin, opened⟩]

/-- Any segment after the FIN destroys the connection. -/
theorem receive_closed (env : Env) (closed : s.connectionState = 1) :
    s.receive env seg = s.destroy := by
  have zero : s.connectionState ≠ 0 := by
    rw [closed]
    decide
  rw [CtcpState.receive, if_neg (fun fin => zero fin.2), if_pos closed]

/-- What holds in each case holds after `ctcp_receive`. -/
theorem receive_elim (P : CtcpState → Prop)
    (fin : seg.hasFlag thFin → s.connectionState = 0 →
      P (({ s with connectionState := 1 }.sendSegment env [] thAck.toNat false).log (.output [])))
    (closed : s.connectionState = 1 → P s.destroy)
    (early : ¬ (seg.hasFlag thFin ∧ s.connectionState = 0) → s.connectionState ≠ 1 →
      (s.processAck env seg).2 = true → P (s.processAck env seg).1)
    (late : ¬ (seg.hasFlag thFin ∧ s.connectionState = 0) → s.connectionState ≠ 1 →
      (s.processAck env seg).2 = false → P ((s.processAck env seg).1.processData env seg)) :
    P (s.receive env seg) := by
  rw [CtcpState.receive]
  split
  · rename_i h
    exact fin h.1 h.2
  · rename_i notFin
    split
    · rename_i h
      exact closed h
    · rename_i notClosed
      dsimp only
      split
      · rename_i h
        exact early notFin notClosed h
      · rename_i h
        exact late notFin notClosed (Bool.not_eq_true _ ▸ h)

end Receive

theorem receive_micro (s : CtcpState) (seg : CtcpSegment) : Micros env s (s.receive env seg) := by
  have part := (processAck_sends env s seg).micros
  apply receive_elim
  case fin =>
    intro _ _
    exact .head ⟨_, .fin s⟩ (.head ⟨_, .control _ _⟩ (.single ⟨_, .output _ _⟩))
  case closed =>
    intro _
    exact .single ⟨_, .destroy s⟩
  case early =>
    intro _ _ _
    exact part
  case late =>
    intro _ _ _
    exact part.trans (processData_micro _ seg)

theorem retransmitLoop_sends (visited rest : List Buf) (s : CtcpState)
    (h : s.unacknowledgedSegments = visited ++ rest) :
    Sends env s (CtcpState.retransmitLoop env visited rest s) := by
  induction rest generalizing visited s with
  | nil => exact .refl
  | cons b rest ih =>
    rw [CtcpState.retransmitLoop]
    split
    · rename_i due
      split
      · exact .head (.retransmit h due) (.single (.destroy _))
      · exact .head (.retransmit h due)
          (ih _ _ (by simp [CtcpState.retransmitOne, CtcpState.log]))
    · split
      · exact .head (.tune (tuned_tick s)) (.single (.destroy _))
      · exact .head (.tune (tuned_tick s)) (ih _ _ (by simp [h]))

theorem timer_sends (s : CtcpState) : Sends env s (s.timer env) :=
  .head (.tune (tuned_timerBbr s)) (retransmitLoop_sends [] _ _ rfl)

/-! ## The trace -/

/-- An elementary step only adds to the trace. -/
theorem micro_trace {half : Half} {s t : CtcpState} (h : Micro env half s t) :
    s.trace <+: t.trace := by
  cases h with
  | tune tuned =>
    obtain ⟨_, _, _, _, _, _, _, rfl⟩ := tuned
    exact List.prefix_rfl
  | limit | destroy | recordSeqno | fin => exact List.prefix_rfl
  | control | admitted | transmit | remove | retransmit | output => exact List.prefix_append _ _

theorem micros_trace {s t : CtcpState} (h : Micros env s t) : s.trace <+: t.trace :=
  chain_invariant (fun u => s.trace <+: u.trace)
    (fun hu ⟨_, hstep⟩ => hu.trans (micro_trace hstep)) h List.prefix_rfl

/-! ## Runs -/

/-- A call the connection receives. Every call of `send_segment` without
`req_ack` in the source passes no data; `ctcp_output` is the call
`control TH_ACK`. -/
inductive Op where
  /-- `send_segment(state, data, data_size, flags, 1)` -/
  | send (data : Payload) (flags : Int)
  /-- `send_segment(state, NULL, 0, flags, 0)` -/
  | control (flags : Int)
  /-- `ctcp_receive(state, segment, len)` -/
  | receive (seg : CtcpSegment)
  /-- the visit of `ctcp_timer()` -/
  | timer
  deriving DecidableEq, Repr

/-- The state after a call. -/
def CtcpState.apply (env : Env) (s : CtcpState) : Op → CtcpState
  | .send data flags => s.sendSegment env data.1 flags true
  | .control flags => s.sendSegment env [] flags false
  | .receive seg => s.receive env seg
  | .timer => s.timer env

/-- A call on a live connection. -/
def Step (env : Env) (s : CtcpState) (op : Op) (t : CtcpState) : Prop :=
  s.alive = true ∧ t = s.apply env op

/-- A call is a chain of elementary steps, after queueing the segment if it
is one to queue. -/
theorem apply_micro (env : Env) (s : CtcpState) (op : Op) :
    (∃ data flags, op = .send data flags ∧
      Micros env (s.enqueue env data.1 flags) (s.apply env op)) ∨
    (∀ data flags, op ≠ .send data flags) ∧ Micros env s (s.apply env op) := by
  cases op with
  | send data flags => exact .inl ⟨data, flags, rfl, (sendSegment_sends s data.1 flags).micros⟩
  | control flags => exact .inr ⟨nofun, .single ⟨_, .control s flags⟩⟩
  | receive seg => exact .inr ⟨nofun, receive_micro s seg⟩
  | timer => exact .inr ⟨nofun, (timer_sends s).micros⟩

/-- What queueing a segment and every elementary step keep, a call keeps. -/
theorem apply_invariant (P : CtcpState → Prop)
    (enqueue : ∀ s (data : Payload) flags, P s → P (s.enqueue env data.1 flags))
    (micro : ∀ {half s t}, P s → Micro env half s t → P t) (s : CtcpState) (op : Op) (h : P s) :
    P (s.apply env op) := by
  have keep : ∀ {t u}, P t → (∃ half, Micro env half t u) → P u :=
    fun ht ⟨_, hstep⟩ => micro ht hstep
  obtain ⟨data, flags, _, chain⟩ | ⟨_, chain⟩ := apply_micro env s op
  · exact chain_invariant P keep chain (enqueue s data flags h)
  · exact chain_invariant P keep chain h

/-- What queueing a segment and every elementary step keep holds in every
state of every run. -/
theorem run_invariant (P : CtcpState → Prop)
    (enqueue : ∀ s (data : Payload) flags, P s → P (s.enqueue env data.1 flags))
    (micro : ∀ {half s t}, P s → Micro env half s t → P t) {s u : CtcpState} {ops : List Op}
    (start : P s) (h : Run (Step env) s ops u) : P u := by
  refine Run.invariant P start (fun {t op u} ht hstep => ?_) h
  rw [hstep.2]
  exact apply_invariant P enqueue micro t op ht

/-- The state after a list of calls. -/
def CtcpState.applyAll (env : Env) (s : CtcpState) (ops : List Op) : CtcpState :=
  ops.foldl (CtcpState.apply env) s

/-- Calls that find the connection alive are a run. -/
theorem run_applyAll {s : CtcpState} {ops : List Op}
    (h : allowed (fun s _ => s.alive) (CtcpState.apply env) s ops = true) :
    Run (Step env) s ops (s.applyAll env ops) :=
  run_foldl _ (fun _ _ alive => ⟨alive, rfl⟩) h

end NetLabs.Ctcp
