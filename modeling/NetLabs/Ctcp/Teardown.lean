/-
NetLabs.Ctcp.Teardown — when a connection is destroyed.

`ctcp.h` says when: the peer's FIN was received, the input has ended and a
FIN was sent, everything sent was acknowledged and everything received was
given out; or the peer does not respond. The code destroys a connection
whenever a segment arrives after the peer's FIN, and whenever its input ends
after the peer's FIN with nothing pending. It checks none of the rest, so a
FIN that arrives twice ends a connection that has not read its input
(`repeated_fin_destroys`).

`Orderly` is the condition on these two calls under which the contract is
met, and it is exact (`teardown_finished`). The timer destroys unresponsive
connections only.
-/
import NetLabs.Ctcp.Session

namespace NetLabs.Ctcp

open NetLabs.Lib

variable {env : Env}

/-! ## The contract -/

/-- The data of every segment in the first list was given out, from this
segment or from a copy. -/
def AllPrinted (received printed : List CtcpSegment) : Prop :=
  ∀ seg ∈ received, seg.data ≠ [] → ∃ o ∈ printed, o.seqno = seg.seqno ∧ o.data = seg.data

instance (received printed : List CtcpSegment) : Decidable (AllPrinted received printed) :=
  inferInstanceAs (Decidable (∀ seg ∈ received, _ → _))

namespace Session

/-- What `ctcp.h` asks for before a connection is destroyed: both sides have
finished, and everything was acknowledged and given out. -/
structure Finished (c : Session) : Prop where
  peerFin : ∃ seg ∈ c.received, seg.hasFlag thFin
  eof : c.readEof = true
  finSent : c.state.FinSent
  acknowledged : c.state.unacknowledgedSegments = []
  sent : c.state.outputPendingSegments = []
  printed : AllPrinted c.received c.printed

/-- What `ctcp.h` allows instead: a segment was retransmitted 5 times. -/
def Unresponsive (c : Session) : Prop :=
  ∃ b ∈ c.state.unacknowledgedSegments, 5 ≤ c.state.resends b.addr

/-- A segment that arrives after the peer's FIN finds a FIN sent, nothing
queued, and everything given out, its own data included. When the input ends
after the peer's FIN and nothing is pending, nothing is unacknowledged and
everything was given out. -/
def Orderly (c : Session) : Call → Prop
  | .receive seg => c.state.connectionState = 1 →
      c.state.FinSent ∧ c.state.sendQueue = [] ∧ AllPrinted (c.received ++ [seg]) c.printed
  | .eof => c.state.connectionState = 1 → c.state.outputPendingSegments = [] →
      c.state.unacknowledgedSegments = [] ∧ AllPrinted c.received c.printed
  | _ => True

instance (c : Session) : (call : Call) → Decidable (c.Orderly call)
  | .receive _ => inferInstanceAs (Decidable (_ → _ ∧ _))
  | .eof => inferInstanceAs (Decidable (_ → _ → _))
  | .block _ | .output | .timer => inferInstanceAs (Decidable True)

end Session

/-! ## Which calls destroy -/

theorem processAck_alive (env : Env) (s : CtcpState) (seg : CtcpSegment) :
    (s.processAck env seg).1.alive = s.alive := by
  apply processAck_relation (fun s t => t.alive = s.alive) (fun _ => rfl)
    (fun first next => next.trans first)
  case remove =>
    intro s b rest _
    exact (tuned_measure env s b).alive
  case flush =>
    intro s
    exact (admitFlush_sameWindow env s).alive

/-- `ctcp_receive` destroys a connection exactly after the peer's FIN. -/
theorem receive_alive (s : CtcpState) (seg : CtcpSegment) (h : s.connectionState ≠ 1) :
    (s.receive env seg).alive = s.alive := by
  have part := processAck_alive env s seg
  apply receive_elim (fun t => t.alive = s.alive)
  case fin =>
    intro _ _
    rfl
  case closed =>
    intro closed
    exact absurd closed h
  case early =>
    intro _ _ _
    exact part
  case late =>
    intro _ _ _
    obtain ⟨-, -, -, alive⟩ := processData_frame env (s.processAck env seg).1 seg
    exact alive.trans part

/-- The end of input destroys a connection after the peer's FIN, if nothing is
pending. -/
theorem readEof_alive (env : Env) (s : CtcpState) :
    (s.readEof env).alive = s.alive ∨
      s.outputPendingSegments = [] ∧ s.connectionState ≠ 0 ∧
        s.readEof env = (s.sendControl env [] thFin.toNat).destroy := by
  rw [CtcpState.readEof]
  split
  · exact .inl rfl
  · rename_i pending
    split
    · exact .inl rfl
    · rename_i opened
      exact .inr ⟨not_not.mp pending, opened, rfl⟩

/-- The retransmission loop destroys a connection over a segment it sent 5
times. -/
theorem retransmitLoop_destroys (visited rest : List Buf) (s : CtcpState)
    (queue : s.unacknowledgedSegments = visited ++ rest) (alive : s.alive = true)
    (dead : (CtcpState.retransmitLoop env visited rest s).alive = false) :
    ∃ b ∈ (CtcpState.retransmitLoop env visited rest s).unacknowledgedSegments,
      5 ≤ b.retransmissions := by
  induction rest generalizing visited s with
  | nil => exact absurd alive (by rw [show s.alive = false from dead]; decide)
  | cons b rest ih =>
    rw [CtcpState.retransmitLoop] at dead ⊢
    split_ifs at dead ⊢ with due give idle
    · exact ⟨s.markResent env b, List.mem_append_right _ List.mem_cons_self, give⟩
    · exact ih _ _ (by simp [CtcpState.retransmitOne, CtcpState.log]) alive dead
    · exact ⟨b, queue ▸ List.mem_append_right _ List.mem_cons_self, idle⟩
    · exact ih _ _ (by simp [queue]) alive dead

/-! ## The invariant -/

/-- `connection_state` is 1 exactly if a FIN was received, and otherwise 0. -/
structure TeardownInv (env : Env) (c : Session) : Prop extends SessionInv env c where
  opened : c.state.connectionState ≠ 1 → c.state.connectionState = 0
  closed : c.state.connectionState = 1 → ∃ seg ∈ c.received, seg.hasFlag thFin

theorem teardownInv_start (block : Bbr) (config : CtcpConfig) :
    TeardownInv env (.start (ctcpInit env block config)) :=
  ⟨sessionInv_start block config, fun _ => rfl, nofun⟩

/-- Only a FIN changes `connection_state`. -/
theorem receive_connectionState (env : Env) (s : CtcpState) (seg : CtcpSegment) :
    (s.receive env seg).connectionState = s.connectionState ∨
      (s.receive env seg).connectionState = 1 ∧ seg.hasFlag thFin := by
  have part := (sends_sameReceiver (processAck_sends env s seg)).connectionState
  apply receive_elim (fun t => t.connectionState = s.connectionState ∨
    t.connectionState = 1 ∧ seg.hasFlag thFin)
  case fin =>
    intro fin _
    exact .inr ⟨rfl, fin⟩
  case closed =>
    intro _
    exact .inl rfl
  case early =>
    intro _ _ _
    exact .inl part
  case late =>
    intro _ _ _
    obtain ⟨-, -, state, -⟩ := processData_frame env (s.processAck env seg).1 seg
    exact .inl (state.trans part)

theorem teardownInv_step {c c' : Session} {call : Call} (h : TeardownInv env c)
    (hstep : SessionStep env c call c') : TeardownInv env c' := by
  have session := sessionInv_step h.toSessionInv hstep
  obtain ⟨-, received⟩ := hstep.record
  have step := hstep.callStep
  -- the FIN that was received before was received
  have same (same : c'.state.connectionState = c.state.connectionState) : TeardownInv env c' := by
    refine ⟨session, fun ne => same.trans (h.opened (same ▸ ne)), ?_⟩
    intro closed
    obtain ⟨fin, mem, flag⟩ := h.closed (same ▸ closed)
    exact ⟨fin, received ▸ List.mem_append_left _ mem, flag⟩
  cases call with
  | receive seg =>
    have state : c'.state = c.state.receive env seg := (Option.some_inj.mp step.2).symm
    rcases receive_connectionState env c.state seg with kept | ⟨closed, fin⟩
    · exact same (state ▸ kept)
    · exact ⟨session, fun ne => absurd (state ▸ closed) ne,
        fun _ => ⟨seg, received ▸ List.mem_append_right _ List.mem_cons_self, fin⟩⟩
  | _ => exact same (call_sameReceiver step rfl).connectionState

/-! ## Teardown -/

section Destroyed

variable {c c' : Session}

/-- The end of input destroys a connection after the peer's FIN, and finishes
it exactly if it is `Orderly`. -/
theorem destroyed_eof (h : TeardownInv env c) (hstep : SessionStep env c .eof c')
    (dead : c'.state.alive = false) : c'.Finished ↔ c.Orderly .eof := by
  obtain ⟨enabled, happly⟩ := hstep
  obtain ⟨t, hcall, rfl⟩ := Option.map_eq_some_iff.mp happly
  obtain rfl := Option.some_inj.mp hcall
  obtain same | ⟨pending, ne, eq⟩ := readEof_alive env c.state
  · exact absurd (enabled.symm.trans (same.symm.trans dead)) (by decide)
  have closed : c.state.connectionState = 1 := by
    by_contra opened
    exact ne (h.opened opened)
  have fin : (c.state.makeSegment env [] thFin.toNat).hasFlag thFin := by
    show UInt32.ofInt thFin.toNat &&& thFin = thFin
    decide
  have finSent : (c.state.sendControl env [] thFin.toNat).destroy.FinSent :=
    ⟨_, List.mem_append_right _ List.mem_cons_self, fin⟩
  rw [eq]
  constructor
  · intro finished _ _
    have printed := finished.printed
    simp only [Call.arrival, List.filter_nil, List.append_nil] at printed
    exact ⟨finished.acknowledged, printed⟩
  · intro orderly
    obtain ⟨acknowledged, printed⟩ := orderly closed pending
    obtain ⟨peerFin, mem, flag⟩ := h.closed closed
    refine ⟨⟨peerFin, List.mem_append_left _ mem, flag⟩, Bool.or_true _, finSent,
      acknowledged, pending, ?_⟩
    simpa only [Call.arrival, List.filter_nil, List.append_nil] using printed

/-- A segment that destroys the connection finishes it exactly if the call is
orderly. -/
theorem destroyed_receive {seg : CtcpSegment} (h : TeardownInv env c)
    (hstep : SessionStep env c (.receive seg) c') (dead : c'.state.alive = false) :
    c'.Finished ↔ c.Orderly (.receive seg) := by
  obtain ⟨enabled, happly⟩ := hstep
  obtain ⟨t, hcall, rfl⟩ := Option.map_eq_some_iff.mp happly
  obtain rfl := Option.some_inj.mp hcall
  have closed : c.state.connectionState = 1 := by
    by_contra opened
    have same : (c.state.receive env seg).alive = c.state.alive :=
      receive_alive c.state seg opened
    exact absurd (enabled.symm.trans (same.symm.trans dead)) (by decide)
  have destroys : c.state.receive env seg = c.state.destroy := receive_closed env closed
  have silent : newEvents c.state c.state.destroy = [] := List.drop_length
  rw [destroys, silent]
  constructor
  · intro finished _
    have printed := finished.printed
    simp only [Call.arrival, List.not_mem_nil, decide_false, List.filter_false,
      List.append_nil] at printed
    exact ⟨finished.finSent, List.append_eq_nil_iff.mpr ⟨finished.acknowledged, finished.sent⟩,
      printed⟩
  · intro orderly
    obtain ⟨finSent, queues, printed⟩ := orderly closed
    obtain ⟨peerFin, mem, flag⟩ := h.closed closed
    obtain ⟨acknowledged, sent⟩ := List.append_eq_nil_iff.mp queues
    refine ⟨⟨peerFin, List.mem_append_left _ mem, flag⟩,
      (Bool.or_false _).trans (h.readEof finSent), finSent, acknowledged, sent, ?_⟩
    simpa only [Call.arrival, List.not_mem_nil, decide_false, List.filter_false,
      List.append_nil] using printed

/-- The timer destroys an unresponsive connection. -/
theorem destroyed_timer (h : TeardownInv env c) (hstep : SessionStep env c .timer c')
    (dead : c'.state.alive = false) : c'.Unresponsive := by
  have sent := (teardownInv_step h hstep).sent
  obtain ⟨enabled, happly⟩ := hstep
  obtain ⟨t, hcall, rfl⟩ := Option.map_eq_some_iff.mp happly
  obtain rfl := Option.some_inj.mp hcall
  have alive : (c.state.timerBbr env).alive = true := (tuned_timerBbr c.state).alive.trans enabled
  obtain ⟨b, hb, five⟩ := retransmitLoop_destroys [] _ _ rfl alive dead
  refine ⟨b, hb, ?_⟩
  have marked := (sent.marked b (List.mem_append_left _ hb)).retransmissions
  rw [marked] at five
  exact Int.ofNat_le.mp five

/-- A call that destroys a live connection is one of the timer, and a segment
was retransmitted 5 times, or it finishes the connection exactly if it is
`Orderly`. -/
theorem destroyed {call : Call} (h : TeardownInv env c) (hstep : SessionStep env c call c')
    (dead : c'.state.alive = false) :
    call = .timer ∧ c'.Unresponsive ∨ call ≠ .timer ∧ (c'.Finished ↔ c.Orderly call) := by
  cases call with
  | block b =>
    -- sending destroys nothing
    obtain ⟨_, -, same, -⟩ := call_block hstep.callStep
    have alive : c'.state.alive = true := same.alive.trans hstep.1.1
    exact absurd (alive.symm.trans dead) (by decide)
  | output =>
    obtain ⟨alive, hcall⟩ := hstep.callStep
    rw [← Option.some_inj.mp hcall] at dead
    exact absurd (alive.symm.trans dead) (by decide)
  | eof => exact .inr ⟨(fun timer => by cases timer), destroyed_eof h hstep dead⟩
  | receive seg => exact .inr ⟨(fun timer => by cases timer), destroyed_receive h hstep dead⟩
  | timer => exact .inl ⟨rfl, destroyed_timer h hstep dead⟩

end Destroyed

/-- **Teardown only when finished or unresponsive.** In every run whose calls
are all `Orderly`, a connection is destroyed only when it is finished, or
after a segment was retransmitted 5 times. A call other than the timer's that
destroys it finishes it exactly if it is `Orderly`. -/
theorem teardown_finished {block : Bbr} {config : CtcpConfig} {calls : List Call} {c : Session}
    (h : Run (Guarded (SessionStep env) Session.Orderly) (.start (ctcpInit env block config)) calls
      c) :
    (c.state.alive = false → c.Finished ∨ c.Unresponsive) ∧
      ∀ call c', SessionStep env c call c' → c'.state.alive = false → call ≠ .timer →
        (c'.Finished ↔ c.Orderly call) := by
  have inv : TeardownInv env c :=
    Run.invariant (TeardownInv env) (teardownInv_start block config)
      (fun ht hstep => teardownInv_step ht hstep.1) h
  refine ⟨?_, fun call c' hstep dead other => ?_⟩
  · cases h with
    | nil => nofun
    | snoc hrun hstep =>
      intro dead
      have before : TeardownInv env _ :=
        Run.invariant (TeardownInv env) (teardownInv_start block config)
          (fun ht hstep => teardownInv_step ht hstep.1) hrun
      obtain ⟨-, unresponsive⟩ | ⟨-, iff⟩ := destroyed before hstep.1 dead
      · exact .inr unresponsive
      · exact .inl (iff.mpr hstep.2)
  · obtain ⟨rfl, -⟩ | ⟨-, iff⟩ := destroyed inv hstep dead
    · exact absurd rfl other
    · exact iff

/-- A byte is sent and acknowledged, the peer's FIN arrives, and the input
ends. -/
theorem teardown_finished_both_fins :
    let ack : CtcpSegment := ⟨1, 2, 20, thAck, 1440, 0, []⟩
    let fin : CtcpSegment := ⟨1, 2, 20, thFin, 1440, 0, []⟩
    let c : Session := ⟨((CtcpState.fresh (.plain .little)).applyAll (.plain .little)
        [.send ⟨[97], by decide⟩ 16, .receive ack, .receive fin]).readEof (.plain .little),
      true, [ack, fin], [fin]⟩
    (c.state.alive = false → c.Finished ∨ c.Unresponsive) ∧
      ∀ call c', SessionStep (.plain .little) c call c' → c'.state.alive = false → call ≠ .timer →
        (c'.Finished ↔ c.Orderly call) := by
  intro ack fin c
  have run : Run (Guarded (SessionStep (.plain .little)) Session.Orderly)
      (.start (ctcpInit (.plain .little) .cleared ⟨1440, 200⟩))
      [.block ⟨[97], by decide, by decide, fun _ => 0⟩, .receive ack, .receive fin, .eof] c :=
    run_foldlM (fun c call => decide (c.Enabled call ∧ c.Orderly call))
      (fun _ _ _ h happly => ⟨⟨(of_decide_eq_true h).1, happly⟩, (of_decide_eq_true h).2⟩)
      (by decide +kernel)
  exact teardown_finished run

/-- The peer's FIN arrives twice, before the input has ended. -/
theorem repeated_fin_destroys :
    ¬ ∀ (calls : List Call) (c : Session),
      Run (SessionStep (.plain .little)) (.start (.fresh (.plain .little))) calls c →
        c.state.alive = false → c.Finished ∨ c.Unresponsive := by
  intro general
  let fin : CtcpSegment := ⟨1, 1, 20, thFin, 1440, 0, []⟩
  let s := (CtcpState.fresh (.plain .little)).applyAll (.plain .little) [.receive fin, .receive fin]
  have run : Run (SessionStep (.plain .little)) (.start (.fresh (.plain .little)))
      [.receive fin, .receive fin] ⟨s, false, [fin, fin], [fin]⟩ :=
    run_foldlM (fun c call => decide (c.Enabled call))
      (fun _ _ _ h happly => ⟨of_decide_eq_true h, happly⟩) (by decide +kernel)
  rcases general _ _ run (by decide +kernel) with finished | ⟨b, hb, -⟩
  · exact Bool.noConfusion finished.eof
  · have empty : s.unacknowledgedSegments = [] := by decide +kernel
    rw [empty] at hb
    exact List.not_mem_nil hb

end NetLabs.Ctcp
