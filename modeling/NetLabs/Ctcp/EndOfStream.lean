/-
NetLabs.Ctcp.EndOfStream — what the peer has put out when it signals the end
of the stream.

An `Exchange` is a session that sends, its peer, and a network between them
as in `Delivery.lean`, with FINs. The sender may send its FIN while data is
unacknowledged, and the peer takes a FIN at once, wherever it stands: a FIN
that overtakes data, or whose data was lost, ends the output early, and what
arrives later destroys the connection (`overtaking_fin_truncates`).

`Timely` is the condition on a delivery: data arrives in order, and a FIN
when all before it was put out. Then the peer has put out the whole stream
when it signals the end, and with it every byte the sender read
(`end_of_stream`).
-/
import NetLabs.Ctcp.Session
import NetLabs.Ctcp.Delivery

namespace NetLabs.Ctcp

open NetLabs.Lib

/-! ## Two sessions and a network -/

/-- A session that sends and its peer. -/
structure Exchange where
  sender : Session
  peer : Session
  deriving DecidableEq, Repr

/-- What can happen in an exchange. -/
inductive ExchangeOp where
  /-- a call on the sender -/
  | sender (call : Call)
  /-- a call on the peer other than `ctcp_receive` -/
  | peer (call : Call)
  /-- `ctcp_receive` on the peer, for a segment the sender built at this position -/
  | deliver (position : Nat) (seg : CtcpSegment)

/-- The input the sender reads in a step. -/
def ExchangeOp.bytes : ExchangeOp → List UInt8
  | .sender call => call.bytes
  | _ => []

variable {env peerEnv : Env}

/-- The state after a step, if the call returns. -/
def Exchange.apply (env peerEnv : Env) (x : Exchange) : ExchangeOp → Option Exchange
  | .sender call => (x.sender.apply env call).map fun sender => { x with sender }
  | .peer call => (x.peer.apply peerEnv call).map fun peer => { x with peer }
  | .deliver _ seg => (x.peer.apply peerEnv (.receive seg)).map fun peer => { x with peer }

/-- A step is a call on a session; only what the sender sent arrives. -/
def Exchange.Enabled (x : Exchange) : ExchangeOp → Prop
  | .sender call => x.sender.Enabled call
  | .peer call => x.peer.Enabled call ∧ call.receives = false
  | .deliver position seg =>
      x.peer.Enabled (.receive seg) ∧ (position, seg) ∈ x.sender.state.sentSegments

instance (x : Exchange) : (op : ExchangeOp) → Decidable (x.Enabled op)
  | .sender call => inferInstanceAs (Decidable (x.sender.Enabled call))
  | .peer _ | .deliver _ _ => inferInstanceAs (Decidable (_ ∧ _))

/-- One step of an exchange. -/
def ExchangeStep (env peerEnv : Env) (x : Exchange) (op : ExchangeOp) (x' : Exchange) : Prop :=
  x.Enabled op ∧ x.apply env peerEnv op = some x'

/-- What a step can be. -/
theorem ExchangeStep.cases {x x' : Exchange} {op : ExchangeOp}
    (h : ExchangeStep env peerEnv x op x') :
    (∃ call c, op = .sender call ∧ SessionStep env x.sender call c ∧
      x' = { x with sender := c }) ∨
    (∃ call c, op = .peer call ∧ call.receives = false ∧ SessionStep peerEnv x.peer call c ∧
      x' = { x with peer := c }) ∨
    ∃ position seg c, op = .deliver position seg ∧ (position, seg) ∈ x.sender.state.sentSegments ∧
      SessionStep peerEnv x.peer (.receive seg) c ∧ x' = { x with peer := c } := by
  obtain ⟨enabled, happly⟩ := h
  cases op with
  | sender call =>
    obtain ⟨c, hc, rfl⟩ := Option.map_eq_some_iff.mp happly
    exact .inl ⟨call, c, rfl, ⟨enabled, hc⟩, rfl⟩
  | peer call =>
    obtain ⟨c, hc, rfl⟩ := Option.map_eq_some_iff.mp happly
    exact .inr (.inl ⟨call, c, rfl, enabled.2, ⟨enabled.1, hc⟩, rfl⟩)
  | deliver position seg =>
    rw [Exchange.apply, Option.map_eq_some_iff] at happly
    obtain ⟨c, hc, rfl⟩ := happly
    exact .inr (.inr ⟨position, seg, c, rfl, enabled.2, ⟨enabled.1, hc⟩, rfl⟩)

/-- The two connections, as a link. -/
def Exchange.link (x : Exchange) : Link := ⟨x.sender.state, x.peer.state⟩

/-- Until the peer has taken a FIN, a delivery is in order, and a FIN stands
where the output ends. -/
def Timely (peerEnv : Env) (x : Exchange) : ExchangeOp → Prop
  | .deliver position seg => x.peer.state.connectionState = 0 →
      if seg.hasFlag thFin then position = x.peer.state.delivered.length
      else InOrder peerEnv x.link (.deliver position seg)
  | _ => True

instance (peerEnv : Env) (x : Exchange) : (op : ExchangeOp) → Decidable (Timely peerEnv x op)
  | .deliver _ _ => inferInstanceAs (Decidable (_ → ite _ _ _))
  | .sender _ | .peer _ => inferInstanceAs (Decidable True)

/-! ## Signals of the end -/

/-- The connection has signalled the end of the stream. -/
def CtcpState.SignalledEnd (s : CtcpState) : Prop := .output [] ∈ s.trace

instance (s : CtcpState) : Decidable s.SignalledEnd := inferInstanceAs (Decidable (_ ∈ _))

/-- No data is put out between the two states, and no end signalled. -/
abbrev Silent (s t : CtcpState) : Prop := Adds (fun e => e.output? = none) s t

/-- The sending half puts nothing out. -/
theorem Event.Stamped.silent {ackno : UInt32} {e : Event} (h : e.Stamped ackno) :
    e.output? = none := by
  cases e with
  | output => exact h.elim
  | _ => rfl

theorem Silent.signalledEnd {s t : CtcpState} (h : Silent s t) (signalled : t.SignalledEnd) :
    s.SignalledEnd := by
  rcases h.mem signalled with was | new
  · exact was
  · cases new

/-- Nothing but `ctcp_receive` puts anything out. -/
theorem call_silent {s t : CtcpState} {c : Call} (h : CallStep env s c t)
    (other : c.receives = false) : Silent s t := by
  refine call_relation Silent .refl .trans (fun s op made => ?_) (fun _ => .silent rfl) h
  obtain ⟨es, trace, stamped⟩ := apply_stamped env s (made.receives other)
  exact ⟨es, trace, fun e he => (stamped e he).silent⟩

/-- Of the segments `ctcp_receive` gets, only a FIN signals the end. -/
theorem receive_signalledEnd {s : CtcpState} {seg : CtcpSegment}
    (len : seg.len.toNat = segmentHdrSize + seg.data.length)
    (noFin : ¬ (seg.hasFlag thFin ∧ s.connectionState = 0))
    (h : (s.receive env seg).SignalledEnd) : s.SignalledEnd := by
  have part : Silent s (s.processAck env seg).1 := by
    obtain ⟨es, trace, stamped⟩ := sends_stamped (processAck_sends env s seg)
    exact ⟨es, trace, fun e he => (stamped e he).silent⟩
  rw [CtcpState.receive, if_neg noFin] at h
  split at h
  · exact h
  · dsimp only at h
    split at h
    · exact part.signalledEnd h
    · refine part.signalledEnd ?_
      by_cases accepted : seg.data ≠ [] ∧ ¬ (s.processAck env seg).1.isDuplicate seg
      · -- what is put out is as long as the data
        obtain ⟨position, c, -, trace⟩ := processData_accepts env len accepted.1 accepted.2
        rw [CtcpState.SignalledEnd, trace] at h
        rcases List.mem_append.mp h with was | new
        · exact was
        · have empty : CtcpState.strncpy seg.data = [] := by simpa using new
          have length := length_strncpy seg.data
          rw [empty] at length
          exact absurd (List.length_eq_zero_iff.mp length.symm) accepted.1
      · rw [CtcpState.SignalledEnd, processData_ignores env len accepted] at h
        exact h

/-! ## The invariant -/

/-- The output is a prefix of the stream and the watermark stands behind it.
Once a FIN was taken the output is the stream, which has ended. -/
structure ExchangeInv (env : Env) (x : Exchange) : Prop where
  sender : SessionInv env x.sender
  output : x.peer.state.delivered <+: x.sender.state.stream
  opened : x.peer.state.connectionState = 0 →
    x.peer.state.secondMostRecentAcknowledgement = UInt32.ofNat (1 + x.peer.state.delivered.length)
  closed : x.peer.state.connectionState ≠ 0 → x.peer.state.connectionState = 1 ∧
    x.sender.readEof = true ∧ x.peer.state.delivered = x.sender.state.stream
  signalled : x.peer.state.SignalledEnd → x.peer.state.connectionState ≠ 0

theorem exchangeInv_start (block peerBlock : Bbr) (config peerConfig : CtcpConfig) :
    ExchangeInv env ⟨.start (ctcpInit env block config),
      .start (ctcpInit peerEnv peerBlock peerConfig)⟩ :=
  ⟨sessionInv_start block config, List.nil_prefix, fun _ => rfl, fun h => absurd rfl h, nofun⟩

/-- A call on the sender extends the stream, unless it has ended. -/
theorem exchangeInv_sender {x : Exchange} {c : Session} {call : Call} (h : ExchangeInv env x)
    (hstep : SessionStep env x.sender call c) : ExchangeInv env { x with sender := c } := by
  refine ⟨sessionInv_step h.sender hstep, ?_, h.opened, fun closed => ?_, h.signalled⟩
  · obtain ⟨pieces, stream, -⟩ := call_stream hstep.callStep
    rw [stream, List.append_assoc]
    exact h.output.trans (List.prefix_append _ _)
  · obtain ⟨state, ended, whole⟩ := h.closed closed
    obtain ⟨readEof, -⟩ := hstep.record
    exact ⟨state, by rw [readEof, ended, Bool.true_or], by rw [whole, hstep.frozen (.inl ended)]⟩

/-- A state of the peer with the same output. -/
theorem exchangeInv_same {x : Exchange} {c : Session} (h : ExchangeInv env x)
    (same : SameReceiver x.peer.state c.state) (silent : Silent x.peer.state c.state) :
    ExchangeInv env { x with peer := c } where
  sender := h.sender
  output := same.delivered ▸ h.output
  opened opened := by
    rw [same.watermark, same.delivered]
    exact h.opened (same.connectionState ▸ opened)
  closed closed := by
    rw [same.connectionState, same.delivered]
    exact h.closed (same.connectionState ▸ closed)
  signalled end_ := same.connectionState ▸ h.signalled (silent.signalledEnd end_)

/-- A FIN finds the whole stream put out exactly if the output ends where it
stands. -/
theorem fin_whole_iff {x : Exchange} {position : Nat} {seg : CtcpSegment} (h : ExchangeInv env x)
    (sent : (position, seg) ∈ x.sender.state.sentSegments) (fin : seg.hasFlag thFin) :
    x.peer.state.delivered = x.sender.state.stream ↔
      position = x.peer.state.delivered.length := by
  obtain ⟨-, last⟩ := h.sender.fins _ sent fin
  exact ⟨fun whole => whole ▸ last, fun timely => h.output.eq_of_length (timely.symm.trans last)⟩

/-- `ctcp_receive`, for what the sender sent. -/
theorem exchangeInv_receive {x : Exchange} {position : Nat} {seg : CtcpSegment}
    (h : ExchangeInv env x) (alive : x.peer.state.alive = true)
    (sent : (position, seg) ∈ x.sender.state.sentSegments)
    (timely : Timely peerEnv x (.deliver position seg)) {c : Session}
    (state : c.state = x.peer.state.receive peerEnv seg) :
    ExchangeInv env { x with peer := c } := by
  have cut := h.sender.stream.sent _ sent
  by_cases opened : x.peer.state.connectionState = 0
  · have timely := timely opened
    by_cases fin : seg.hasFlag thFin
    · -- the FIN stands at the end of the stream, and there the output ends
      rw [if_pos fin] at timely
      have ended := (h.sender.fins _ sent fin).1
      have whole := (fin_whole_iff h sent fin).mpr timely
      have delivered : c.state.delivered = x.peer.state.delivered := by
        rw [state, receive_fin peerEnv fin opened, delivered_log]
        exact (List.append_nil _).trans ((delivered_log _ _).trans (List.append_nil _))
      have closed : c.state.connectionState = 1 := by
        rw [state, receive_fin peerEnv fin opened]
        rfl
      have ne : c.state.connectionState ≠ 0 := by
        rw [closed]
        decide
      exact ⟨h.sender, delivered ▸ h.output, fun zero => absurd zero ne,
        fun _ => ⟨closed, ended, delivered.trans whole⟩, fun _ => ne⟩
    · rw [if_neg fin] at timely
      have link : LinkInv x.link := ⟨h.sender.stream, opened, h.output, h.opened opened⟩
      have arrives : LinkStep env peerEnv x.link (.deliver position seg) _ :=
        ⟨⟨alive, sent, fin⟩, rfl⟩
      have after := linkInv_step link arrives timely
      have zero : c.state.connectionState = 0 := state ▸ after.opened
      refine ⟨h.sender, state ▸ after.output, fun _ => state ▸ after.watermark,
        fun ne => absurd zero ne, fun signalled => ?_⟩
      have before := receive_signalledEnd cut.len (fun both => fin both.1) (state ▸ signalled)
      exact absurd opened (h.signalled before)
  · -- after the FIN the connection is destroyed
    have closed := (h.closed opened).1
    have destroyed : c.state = x.peer.state.destroy := state.trans (receive_closed peerEnv closed)
    exact exchangeInv_same h (destroyed ▸ ⟨rfl, rfl, rfl, rfl⟩) (.silent (destroyed ▸ rfl))

theorem exchangeInv_step {x x' : Exchange} {op : ExchangeOp} (h : ExchangeInv env x)
    (hstep : ExchangeStep env peerEnv x op x') (timely : Timely peerEnv x op) :
    ExchangeInv env x' := by
  rcases hstep.cases with ⟨call, c, rfl, step, rfl⟩ | ⟨call, c, rfl, other, step, rfl⟩ |
    ⟨position, seg, c, rfl, sent, step, rfl⟩
  · exact exchangeInv_sender h step
  · exact exchangeInv_same h (call_sameReceiver step.callStep other)
      (call_silent step.callStep other)
  · obtain ⟨fits, reached⟩ := step.callStep
    exact exchangeInv_receive h fits sent timely (Option.some_inj.mp reached).symm

/-! ## The whole stream -/

/-- What the sender read is in its stream. -/
theorem bytes_run {x x' : Exchange} {ops : List ExchangeOp}
    (h : Run (ExchangeStep env peerEnv) x ops x') :
    (ops.flatMap ExchangeOp.bytes).Sublist x'.sender.state.stream := by
  refine Run.history (fun ops x' => (ops.flatMap ExchangeOp.bytes).Sublist x'.sender.state.stream)
    (List.nil_sublist _) (fun {ops t op u} _ ih hstep => ?_) h
  rw [List.flatMap_append, List.flatMap_singleton]
  rcases hstep.cases with ⟨call, c, rfl, step, rfl⟩ | ⟨call, c, rfl, -, -, rfl⟩ |
    ⟨position, seg, c, rfl, -, -, rfl⟩
  · obtain ⟨pieces, stream, -⟩ := call_stream step.callStep
    rw [stream]
    exact (ih.trans (List.sublist_append_left _ pieces)).append (.refl _)
  · exact (List.append_nil _).symm ▸ ih
  · exact (List.append_nil _).symm ▸ ih

/-- **End of stream.** In every run of an exchange whose deliveries are all
`Timely`, a peer that has signalled the end of the stream has put out every
byte the sender read. -/
theorem end_of_stream {block peerBlock : Bbr} {config peerConfig : CtcpConfig}
    {ops : List ExchangeOp} {x : Exchange}
    (h : Run (Guarded (ExchangeStep env peerEnv) (Timely peerEnv))
      ⟨.start (ctcpInit env block config), .start (ctcpInit peerEnv peerBlock peerConfig)⟩ ops x)
    (signalled : x.peer.state.SignalledEnd) :
    x.peer.state.delivered = x.sender.state.stream ∧
      (ops.flatMap ExchangeOp.bytes).Sublist x.peer.state.delivered := by
  have inv : ExchangeInv env x :=
    Run.invariant (ExchangeInv env) (exchangeInv_start block peerBlock config peerConfig)
      (fun ht hstep => exchangeInv_step ht hstep.1 hstep.2) h
  obtain ⟨-, -, whole⟩ := inv.closed (inv.signalled signalled)
  exact ⟨whole, whole ▸ bytes_run h.unguarded⟩

/-- A byte and the FIN behind it arrive in order. -/
theorem end_of_stream_in_order :
    let data : CtcpSegment := ⟨1, 1, 21, thAck, 1440, 18569, [97]⟩
    let fin : CtcpSegment := ⟨2, 1, 20, thFin, 1440, 18681, []⟩
    let peer := (CtcpState.fresh (.plain .little)).applyAll (.plain .little)
      [.receive data, .receive fin]
    peer.SignalledEnd ∧ [97].Sublist peer.delivered := by
  intro data fin peer
  let sender := ((CtcpState.fresh (.plain .little)).applyAll (.plain .little)
    [.send ⟨[97], by decide⟩ 16]).readEof (.plain .little)
  have run :
      Run (Guarded (ExchangeStep (.plain .little) (.plain .little)) (Timely (.plain .little)))
      ⟨.start (ctcpInit (.plain .little) .cleared ⟨1440, 200⟩),
        .start (ctcpInit (.plain .little) .cleared ⟨1440, 200⟩)⟩
      [.sender (.block ⟨[97], by decide, by decide, fun _ => 0⟩), .sender .eof,
        .deliver 0 data, .deliver 1 fin]
      ⟨⟨sender, true, [], []⟩, ⟨peer, false, [data, fin], [data, fin]⟩⟩ :=
    run_foldlM (fun x op => decide (x.Enabled op ∧ Timely (.plain .little) x op))
      (fun _ _ _ h happly => ⟨⟨(of_decide_eq_true h).1, happly⟩, (of_decide_eq_true h).2⟩)
      (by decide +kernel)
  have signalled : peer.SignalledEnd := by decide +kernel
  exact ⟨signalled, (end_of_stream run signalled).2⟩

/-- The sender reads a byte and its input ends. The FIN arrives before the
byte: the peer signals the end and has put nothing out. -/
theorem overtaking_fin_truncates :
    ¬ ∀ (ops : List ExchangeOp) (x : Exchange),
      Run (ExchangeStep (.plain .little) (.plain .little))
        ⟨.start (.fresh (.plain .little)), .start (.fresh (.plain .little))⟩ ops x →
      x.peer.state.SignalledEnd →
        (ops.flatMap ExchangeOp.bytes).Sublist x.peer.state.delivered := by
  intro general
  let fin : CtcpSegment := ⟨2, 1, 20, thFin, 1440, 18681, []⟩
  let sender := ((CtcpState.fresh (.plain .little)).applyAll (.plain .little)
    [.send ⟨[97], by decide⟩ 16]).readEof (.plain .little)
  let peer := (CtcpState.fresh (.plain .little)).applyAll (.plain .little) [.receive fin]
  have run : Run (ExchangeStep (.plain .little) (.plain .little))
      ⟨.start (.fresh (.plain .little)), .start (.fresh (.plain .little))⟩
      [.sender (.block ⟨[97], by decide, by decide, fun _ => 0⟩), .sender .eof, .deliver 1 fin]
      ⟨⟨sender, true, [], []⟩, ⟨peer, false, [fin], [fin]⟩⟩ :=
    run_foldlM (fun x op => decide (x.Enabled op))
      (fun _ _ _ h happly => ⟨of_decide_eq_true h, happly⟩) (by decide +kernel)
  have h := general _ _ run (by decide +kernel)
  revert h
  decide +kernel

end NetLabs.Ctcp
