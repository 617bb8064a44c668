/-
NetLabs.Ctcp.Session — a connection with the history its contract speaks
about, and its FINs.

The comments of `lab3/ctcp.h` speak of the end of input, of the segments
received and of what was given out. `Session` records them beside the state
of the connection. After the end of input a session gets no more of it, since
`conn_input` remembers the end.

Only `ctcp_read` sends a FIN, and only at the end of input. What is sent with
the flag was therefore built at the last position of the stream
(`SessionInv.fins`).
-/
import NetLabs.Ctcp.Read
import NetLabs.Ctcp.Retransmission
import NetLabs.Ctcp.AckHonesty

namespace NetLabs.Ctcp

open NetLabs.Lib

variable {env : Env}

/-! ## Sessions -/

/-- A connection, with `conn->read_eof`, the segments given to `ctcp_receive`
and those whose data it gave to `conn_output`. -/
structure Session where
  state : CtcpState
  readEof : Bool
  received : List CtcpSegment
  printed : List CtcpSegment
  deriving DecidableEq, Repr

/-- The segment a call receives. -/
def Call.arrival : Call → List CtcpSegment
  | .receive seg => [seg]
  | _ => []

namespace Session

/-- The session after a call, if it returns. -/
def apply (env : Env) (c : Session) (call : Call) : Option Session :=
  (c.state.call env call).map fun state =>
    { state
      readEof := c.readEof || call.ends
      received := c.received ++ call.arrival
      printed := c.printed ++
        call.arrival.filter fun seg => .output seg.data ∈ newEvents c.state state }

/-- A live connection gets no input after the end of input. -/
def Enabled (c : Session) : Call → Prop
  | .block _ => c.state.alive = true ∧ c.readEof = false
  | _ => c.state.alive = true

instance (c : Session) : (call : Call) → Decidable (c.Enabled call)
  | .block _ => inferInstanceAs (Decidable (_ ∧ _))
  | .eof | .receive _ | .output | .timer => inferInstanceAs (Decidable (_ = _))

/-- A connection just set up. -/
def start (state : CtcpState) : Session := ⟨state, false, [], []⟩

end Session

/-- One call on a session. -/
def SessionStep (env : Env) (c : Session) (call : Call) (c' : Session) : Prop :=
  c.Enabled call ∧ c.apply env call = some c'

/-- A step is a call on the connection. -/
theorem SessionStep.callStep {c c' : Session} {call : Call} (h : SessionStep env c call c') :
    CallStep env c.state call c'.state := by
  obtain ⟨enabled, happly⟩ := h
  obtain ⟨t, hcall, rfl⟩ := Option.map_eq_some_iff.mp happly
  refine ⟨?_, hcall⟩
  cases call with
  | block => exact enabled.1
  | _ => exact enabled

/-- What else a step records. -/
theorem SessionStep.record {c c' : Session} {call : Call} (h : SessionStep env c call c') :
    c'.readEof = (c.readEof || call.ends) ∧ c'.received = c.received ++ call.arrival := by
  obtain ⟨-, happly⟩ := h
  obtain ⟨t, -, rfl⟩ := Option.map_eq_some_iff.mp happly
  exact ⟨rfl, rfl⟩

/-! ## What is added to the trace -/

/-- The actions between the two states all satisfy `P`. -/
def Adds (P : Event → Prop) (s t : CtcpState) : Prop :=
  ∃ es, t.trace = s.trace ++ es ∧ ∀ e ∈ es, P e

section Adds

variable {P : Event → Prop} {s t u : CtcpState}

theorem Adds.silent (h : t.trace = s.trace) : Adds P s t :=
  ⟨[], by rw [h, List.append_nil], List.forall_mem_nil _⟩

theorem Adds.refl (s : CtcpState) : Adds P s s := .silent rfl

theorem Adds.trans (h : Adds P s t) (h' : Adds P t u) : Adds P s u := by
  obtain ⟨es, trace, hes⟩ := h
  obtain ⟨es', trace', hes'⟩ := h'
  refine ⟨es ++ es', by rw [trace', trace, List.append_assoc], fun e he => ?_⟩
  exact (List.mem_append.mp he).elim (hes e) (hes' e)

theorem Adds.one {e : Event} (h : t.trace = s.trace ++ [e]) (he : P e) : Adds P s t :=
  ⟨[e], h, fun _ hmem => List.mem_singleton.mp hmem ▸ he⟩

theorem Adds.mem {e : Event} (h : Adds P s t) (he : e ∈ t.trace) : e ∈ s.trace ∨ P e := by
  obtain ⟨es, trace, hes⟩ := h
  rw [trace] at he
  exact (List.mem_append.mp he).imp_right (hes e)

end Adds

/-! ## FINs -/

/-- The action is the transmission of a FIN. -/
def Event.IsFin : Event → Prop
  | .control _ seg => seg.hasFlag thFin
  | _ => False

instance : DecidablePred Event.IsFin
  | .control _ seg => inferInstanceAs (Decidable (seg.hasFlag thFin))
  | .queued _ | .admitted _ _ | .transmitted _ | .retransmitted _ | .acknowledged _ | .output _ =>
      inferInstanceAs (Decidable False)

/-- A FIN was sent. -/
def CtcpState.FinSent (s : CtcpState) : Prop := ∃ e ∈ s.trace, e.IsFin

instance (s : CtcpState) : Decidable s.FinSent := inferInstanceAs (Decidable (∃ e ∈ s.trace, _))

/-- No FIN is sent between the two states. -/
abbrev NoFin (s t : CtcpState) : Prop := Adds (fun e => ¬ e.IsFin) s t

theorem admitFlush_noFin (env : Env) (s : CtcpState) : NoFin s (s.admitPending.flush env).1 := by
  apply admitFlush_relation NoFin .refl .trans
  case admits => exact fun _ _ _ => .one rfl id
  case transmit => exact fun _ _ _ _ => .one rfl id
  case limit => exact fun _ => .silent rfl

theorem processAck_noFin (env : Env) (s : CtcpState) (seg : CtcpSegment) :
    NoFin s (s.processAck env seg).1 := by
  apply processAck_relation NoFin .refl .trans
  case remove =>
    intro s b rest _
    obtain ⟨_, _, _, _, _, _, _, tuned⟩ := tuned_measure env s b
    rw [tuned]
    exact .one rfl id
  case flush =>
    exact admitFlush_noFin env

theorem retransmitLoop_noFin (visited rest : List Buf) (s : CtcpState) :
    NoFin s (CtcpState.retransmitLoop env visited rest s) := by
  apply retransmitLoop_relation NoFin .refl .trans
  case resend => exact fun _ _ _ _ => .one rfl id
  case destroy => exact fun _ => .silent rfl
  case tick => exact fun _ => .silent rfl

/-- A segment sent with `TH_ACK` is no FIN. -/
theorem makeSegment_noFin (s : CtcpState) (data : List UInt8) :
    ¬ (s.makeSegment env data thAck.toNat).hasFlag thFin := by
  show ¬ UInt32.ofInt thAck.toNat &&& thFin = thFin
  decide

theorem sendSegment_noFin (env : Env) (s : CtcpState) (data : List UInt8) (reqAck : Bool) :
    NoFin s (s.sendSegment env data thAck.toNat reqAck) := by
  rw [CtcpState.sendSegment]
  split
  · have queued : NoFin s (s.enqueue env data thAck.toNat) := .one rfl id
    exact queued.trans (admitFlush_noFin env _)
  · exact .one rfl (makeSegment_noFin s data)

theorem processData_noFin (env : Env) (s : CtcpState) (seg : CtcpSegment) :
    NoFin s (s.processData env seg) := by
  have stamped : NoFin s (s.recordSeqno seg) := .silent rfl
  rw [CtcpState.processData]
  split
  · exact stamped.trans ((sendSegment_noFin env _ [] false).trans (.one rfl id))
  · exact stamped

theorem receive_noFin (env : Env) (s : CtcpState) (seg : CtcpSegment) :
    NoFin s (s.receive env seg) := by
  have part := processAck_noFin env s seg
  apply receive_elim
  case fin =>
    intro _ _
    have closed : NoFin s { s with connectionState := 1 } := .silent rfl
    exact closed.trans ((sendSegment_noFin env _ [] false).trans (.one rfl id))
  case closed =>
    intro _
    exact .silent rfl
  case early =>
    intro _ _ _
    exact part
  case late =>
    intro _ _ _
    exact part.trans (processData_noFin env _ seg)

theorem timer_noFin (env : Env) (s : CtcpState) : NoFin s (s.timer env) := by
  have tuned : NoFin s (s.timerBbr env) := .silent (tuned_timerBbr s).trace
  exact tuned.trans (retransmitLoop_noFin _ _ _)

/-- Only the end of input sends a FIN. -/
theorem call_noFin {s t : CtcpState} {c : Call} (h : CallStep env s c t) (goesOn : c.ends = false) :
    NoFin s t := by
  refine call_relation NoFin .refl .trans (fun s op made => ?_) (fun _ => .silent rfl) h
  cases op with
  | send data flags =>
    obtain rfl : flags = thAck.toNat := made
    exact sendSegment_noFin env s data.1 true
  | control flags =>
    obtain rfl | ⟨ends, -⟩ := made
    · exact sendSegment_noFin env s [] false
    · rw [goesOn] at ends
      cases ends
  | receive seg => exact receive_noFin env s seg
  | timer => exact timer_noFin env s

/-! ## The stream of a session -/

/-- The input a call reads. -/
def Call.bytes : Call → List UInt8
  | .block b => b.bytes
  | _ => []

/-- A call extends the stream by the input it reads, and before it by the
pieces of a block longer than the window. -/
theorem call_stream {s t : CtcpState} {c : Call} (h : CallStep env s c t) :
    ∃ pieces, t.stream = s.stream ++ pieces ++ c.bytes ∧
      (pieces ≠ [] → ∃ b, c = .block b ∧ s.sendWindow.toNat < b.bytes.length) := by
  obtain ⟨alive, h⟩ := h
  have quiet (op : Op) (none : op.payload? = none) : (s.apply env op).stream = s.stream := by
    rw [CtcpState.stream, queuedPayloads_apply, none, Option.toList_none, List.append_nil,
      CtcpState.stream]
  cases c with
  | block b =>
    obtain ⟨pieces, run, -, short⟩ := call_block ⟨alive, h⟩
    refine ⟨(pieces.map Subtype.val).flatten, ?_, fun ne => ⟨b, rfl, ?_⟩⟩
    · have payloads : (sendAll (pieces ++ [b.payload])).filterMap Op.payload? =
          pieces.map Subtype.val ++ [b.bytes] := by
        simp [sendAll, List.filterMap_map, Function.comp_def, Op.payload?, Block.payload]
      rw [CtcpState.stream, queuedPayloads_run run, payloads]
      simp [CtcpState.stream, Call.bytes]
    · by_contra fits
      exact ne (by rw [short (by omega)]; rfl)
  | eof =>
    obtain rfl := Option.some_inj.mp h
    refine ⟨[], ?_, absurd rfl⟩
    rw [List.append_nil, CtcpState.readEof]
    split
    · exact (List.append_nil _).symm
    · split <;> exact (quiet (.control thFin.toNat) rfl).trans (List.append_nil _).symm
  | receive seg =>
    obtain rfl := Option.some_inj.mp h
    refine ⟨[], ?_, absurd rfl⟩
    rw [List.append_nil]
    exact (quiet (.receive seg) rfl).trans (List.append_nil _).symm
  | output =>
    obtain rfl := Option.some_inj.mp h
    refine ⟨[], ?_, absurd rfl⟩
    rw [List.append_nil]
    exact (quiet (.control thAck.toNat) rfl).trans (List.append_nil _).symm
  | timer =>
    obtain rfl := Option.some_inj.mp h
    refine ⟨[], ?_, absurd rfl⟩
    rw [List.append_nil]
    exact (quiet .timer rfl).trans (List.append_nil _).symm

/-- After the end of input a call leaves the stream as it is. -/
theorem SessionStep.frozen {c c' : Session} {call : Call} (h : SessionStep env c call c')
    (ended : c.readEof = true ∨ call.ends = true) : c'.state.stream = c.state.stream := by
  obtain ⟨pieces, stream, long⟩ := call_stream h.callStep
  cases call with
  | block b => exact absurd h.1.2 (by simpa [Call.ends] using ended)
  | _ =>
    obtain rfl : pieces = [] := by
      by_contra ne
      obtain ⟨b, hb, -⟩ := long ne
      cases hb
    rw [stream, List.append_nil]
    exact List.append_nil _

/-! ## FINs stand at the end -/

/-- What holds of the segments a session queues. -/
structure QueuedInv (env : Env) (s : CtcpState) : Prop where
  sent : SentInv env s
  stream : StreamInv s
  plain : ∀ b, .queued b ∈ s.trace → ¬ b.segment.hasFlag thFin

/-- An elementary step queues nothing. -/
theorem micro_queued {half : Half} {s t : CtcpState} (h : Micro env half s t) {b : Buf}
    (hb : .queued b ∈ t.trace) : .queued b ∈ s.trace := by
  cases h with
  | tune tuned =>
    obtain ⟨_, _, _, _, _, _, _, rfl⟩ := tuned
    exact hb
  | limit | destroy | recordSeqno | fin => exact hb
  | control | admitted | transmit | remove | retransmit | output =>
    rcases List.mem_append.mp hb with hb | hb
    · exact hb
    · cases List.mem_singleton.mp hb

theorem queuedInv_call {s t : CtcpState} {c : Call} (h : QueuedInv env s)
    (hstep : CallStep env s c t) : QueuedInv env t := by
  refine call_invariant (QueuedInv env) (fun s data inv => ?_) (fun inv hm => ?_) h hstep
  · refine ⟨sentInv_enqueue s data _ inv.sent, streamInv_enqueue s data _ inv.stream,
      fun b hb => ?_⟩
    rcases List.mem_append.mp hb with hb | hb
    · exact inv.plain b hb
    · obtain rfl := Event.queued.inj (List.mem_singleton.mp hb)
      exact makeSegment_noFin s data.1
  · exact ⟨sentInv_micro inv.sent hm, streamInv_micro inv.stream hm,
      fun b hb => inv.plain b (micro_queued hm hb)⟩

/-- What is sent with the flag is a FIN of `ctcp_read`. -/
theorem QueuedInv.control {s : CtcpState} (h : QueuedInv env s) {x : Nat × CtcpSegment}
    (hx : x ∈ s.sentSegments) (fin : x.2.hasFlag thFin) : .control x.1 x.2 ∈ s.trace := by
  obtain ⟨e, he, sent⟩ := List.mem_filterMap.mp hx
  have plain {b : Buf} (hb : e.sentBuf? = some b) : ¬ b.segment.hasFlag thFin := by
    obtain ⟨q, hq, -, same⟩ := h.sent.contents b (List.mem_filterMap.mpr ⟨e, he, hb⟩)
    obtain ⟨e', he', queued⟩ := List.mem_filterMap.mp hq
    cases e' with
    | queued q' =>
      obtain rfl := Option.some_inj.mp queued
      rw [← same]
      exact h.plain q' he'
    | _ => cases queued
  cases e with
  | transmitted b =>
    obtain rfl := Option.some_inj.mp sent
    exact absurd fin (plain rfl)
  | retransmitted b =>
    obtain rfl := Option.some_inj.mp sent
    exact absurd fin (plain rfl)
  | control position seg =>
    obtain rfl := Option.some_inj.mp sent
    exact he
  | _ => cases sent

/-- What holds of the segments and the FINs a session sends. -/
structure SessionInv (env : Env) (c : Session) : Prop extends QueuedInv env c.state where
  /-- A FIN was sent after the end of input, at the end of the stream. -/
  fins : ∀ x ∈ c.state.sentSegments, x.2.hasFlag thFin →
    c.readEof = true ∧ x.1 = c.state.stream.length

theorem sessionInv_start (block : Bbr) (config : CtcpConfig) :
    SessionInv env (.start (ctcpInit env block config)) :=
  ⟨⟨sentInv_init block config, streamInv_init block config, nofun⟩, nofun⟩

/-- A FIN tells that the input has ended. -/
theorem SessionInv.readEof {c : Session} (h : SessionInv env c) (fin : c.state.FinSent) :
    c.readEof = true := by
  obtain ⟨e, he, isFin⟩ := fin
  cases e with
  | control position seg =>
    exact (h.fins (position, seg) (List.mem_filterMap.mpr ⟨_, he, rfl⟩) isFin).1
  | _ => exact isFin.elim

/-- The end of input adds at most a FIN at the position of the state. -/
theorem readEof_adds (env : Env) (s : CtcpState) :
    Adds (fun e => ∃ seg, e = .control s.position seg) s (s.readEof env) := by
  rw [CtcpState.readEof]
  split
  · exact .refl s
  · split <;> exact .one rfl ⟨_, rfl⟩

theorem sessionInv_step {c c' : Session} {call : Call} (h : SessionInv env c)
    (hstep : SessionStep env c call c') : SessionInv env c' := by
  have step := hstep.callStep
  have queued := queuedInv_call h.toQueuedInv step
  obtain ⟨readEof, -⟩ := hstep.record
  refine ⟨queued, fun x hx fin => ?_⟩
  have sent := queued.control hx fin
  have frozen (ended : c.readEof = true ∨ call.ends = true) := hstep.frozen ended
  -- a FIN that was there before
  have old (was : .control x.1 x.2 ∈ c.state.trace) :
      c'.readEof = true ∧ x.1 = c'.state.stream.length := by
    obtain ⟨ended, last⟩ := h.fins x (List.mem_filterMap.mpr ⟨_, was, rfl⟩) fin
    exact ⟨by rw [readEof, ended, Bool.true_or], by rw [frozen (.inl ended), last]⟩
  cases hends : call.ends with
  | false => exact ((call_noFin step hends).mem sent).elim old fun quiet => absurd fin quiet
  | true =>
    obtain rfl : call = .eof := by cases call <;> first | rfl | cases hends
    have state : c'.state = c.state.readEof env := (Option.some_inj.mp step.2).symm
    have adds := readEof_adds env c.state
    rw [← state] at adds
    refine (adds.mem sent).elim old fun ⟨seg, new⟩ => ⟨by rw [readEof, hends, Bool.or_true], ?_⟩
    rw [frozen (.inr rfl), ← h.stream.position]
    exact (Event.control.inj new).1

end NetLabs.Ctcp
