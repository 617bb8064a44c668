/-
NetLabs.Ctcp.AckHonesty — the acknowledgement numbers a connection sends and
the bytes it has accepted.

`Acking` is a connection with a ledger: which bytes of its peer's stream
`conn_output` has accepted, and for every segment given to `conn_send` its
acknowledgement number next to the number of bytes accepted contiguously
then. What `ctcp_receive` sends for a segment counts after that segment's
data was offered to `conn_output`: the ACK goes out just before the call, and
the call alone decides whether it was true.

`most_recent_received_acknowledgement` follows every segment that arrives,
whatever becomes of it. So an ACK covers data that `conn_output` refused
(`refused_data_is_acknowledged`), and it jumps over a gap or back to an old
segment. `Acking.Honest` is exactly the condition under which an arrival
leaves the field true (`count_accepts_iff`, `count_ignores_iff`). A segment
queued before the field moved still carries the old number when it is sent or
retransmitted; `Fresh` rules that out. Under both every acknowledgement
number sent is true (`ack_honesty`).
-/
import NetLabs.Ctcp.Stream
import NetLabs.Ctcp.Receiver

namespace NetLabs.Ctcp

open NetLabs.Lib Relation

variable {env : Env}

/-! ## What happened in between -/

/-- The data an action gave to `conn_output`. -/
def Event.output? : Event → Option (List UInt8)
  | .output data => some data
  | _ => none

/-- The actions after `s` and up to `t`. -/
def newEvents (s t : CtcpState) : List Event := t.trace.drop s.trace.length

/-- The segments given to `conn_send` after `s` and up to `t`. -/
def newSegments (s t : CtcpState) : List CtcpSegment := (newEvents s t).filterMap Event.connSend?

theorem newEvents_eq {s t : CtcpState} {es : List Event} (h : t.trace = s.trace ++ es) :
    newEvents s t = es := by
  rw [newEvents, h, List.drop_left]

/-- No segment is sent that was queued under another acknowledgement number
than `s` has. -/
def Fresh (s t : CtcpState) : Prop :=
  ∀ b ∈ (newEvents s t).filterMap Event.sentBuf?,
    b.segment.ackno = s.mostRecentReceivedAcknowledgement

instance (s t : CtcpState) : Decidable (Fresh s t) :=
  inferInstanceAs (Decidable (∀ b ∈ (newEvents s t).filterMap Event.sentBuf?, _))

/-- An action of the sending half in a state with this acknowledgement
number. -/
def Event.Stamped (ackno : UInt32) : Event → Prop
  | .control _ seg => seg.ackno = ackno
  | .output _ => False
  | _ => True

/-- An update of the sending half gives nothing to `conn_output`, and what it
builds carries the acknowledgement number of the state. -/
theorem micro_stamped {s t : CtcpState} (h : Micro env .sending s t) :
    ∃ es, t.trace = s.trace ++ es ∧
      ∀ e ∈ es, e.Stamped s.mostRecentReceivedAcknowledgement := by
  cases h with
  | tune tuned => exact ⟨[], by rw [tuned.trace, List.append_nil], List.forall_mem_nil _⟩
  | limit | destroy => exact ⟨[], (List.append_nil _).symm, List.forall_mem_nil _⟩
  | control => exact ⟨_, rfl, by simp [Event.Stamped, CtcpState.makeSegment]⟩
  | @admitted _ b =>
    exact ⟨[.admitted b s.slidingWindowSizeBytes], rfl, by simp [Event.Stamped]⟩
  | @transmit _ _ b => exact ⟨[.transmitted b], rfl, by simp [Event.Stamped]⟩
  | @remove _ b => exact ⟨[.acknowledged b], rfl, by simp [Event.Stamped]⟩
  | @retransmit _ _ b => exact ⟨[.retransmitted b], rfl, by simp [Event.Stamped]⟩

/-- Everything the sending half sends is stamped with what was received last. -/
theorem sends_stamped {s t : CtcpState} (h : Sends env s t) :
    ∃ es, t.trace = s.trace ++ es ∧
      ∀ e ∈ es, e.Stamped s.mostRecentReceivedAcknowledgement := by
  induction h with
  | refl => exact ⟨[], (List.append_nil _).symm, List.forall_mem_nil _⟩
  | tail hchain hstep ih =>
    obtain ⟨es, htrace, hes⟩ := ih
    obtain ⟨es', htrace', hes'⟩ := micro_stamped hstep
    rw [(sends_sameReceiver hchain).received] at hes'
    refine ⟨es ++ es', by rw [htrace', htrace, List.append_assoc], ?_⟩
    intro e he
    exact (List.mem_append.mp he).elim (hes e) (hes' e)

/-- What the sending half sends carries the acknowledgement number of the
state, if it is `Fresh`. -/
theorem newSegments_ackno {s t : CtcpState} {es : List Event} (htrace : t.trace = s.trace ++ es)
    (stamped : ∀ e ∈ es, e.Stamped s.mostRecentReceivedAcknowledgement) (fresh : Fresh s t) :
    ∀ seg ∈ newSegments s t, seg.ackno = s.mostRecentReceivedAcknowledgement := by
  intro seg hseg
  rw [newSegments, newEvents_eq htrace] at hseg
  rw [Fresh, newEvents_eq htrace] at fresh
  obtain ⟨e, he, hsent⟩ := List.mem_filterMap.mp hseg
  cases e with
  | transmitted b | retransmitted b =>
    obtain rfl : b.segment = seg := by simpa [Event.connSend?] using hsent
    exact fresh b (List.mem_filterMap.mpr ⟨_, he, rfl⟩)
  | control position c =>
    obtain rfl : c = seg := by simpa [Event.connSend?] using hsent
    exact stamped _ he
  | queued | admitted | acknowledged | output => simp [Event.connSend?] at hsent

/-- A call other than `ctcp_receive` does what the sending half does. -/
theorem apply_stamped (env : Env) (s : CtcpState) {op : Op} (h : op.receives = false) :
    ∃ es, (s.apply env op).trace = s.trace ++ es ∧
      ∀ e ∈ es, e.Stamped s.mostRecentReceivedAcknowledgement := by
  cases op with
  | send data flags =>
    obtain ⟨es, htrace, hes⟩ := sends_stamped (sendSegment_sends s data.1 flags)
    refine ⟨.queued (s.makeBuf env data.1 flags) :: es, ?_, ?_⟩
    · rw [CtcpState.apply, htrace]
      exact List.append_assoc _ _ _
    · rw [List.forall_mem_cons]
      exact ⟨trivial, hes⟩
  | control flags => exact sends_stamped (.single (.control s flags))
  | receive seg => cases h
  | timer => exact sends_stamped (timer_sends s)

/-! ## The parts of `ctcp_receive` -/

namespace CtcpState

/-- `ctcp_receive` gets to its ACK part. -/
def ReachesAck (s : CtcpState) (seg : CtcpSegment) : Prop :=
  ¬ (seg.hasFlag thFin ∧ s.connectionState = 0) ∧ s.connectionState ≠ 1

instance (s : CtcpState) (seg : CtcpSegment) : Decidable (s.ReachesAck seg) :=
  inferInstanceAs (Decidable (_ ∧ _))

/-- The state after the ACK part. -/
def ackPart (env : Env) (s : CtcpState) (seg : CtcpSegment) : CtcpState :=
  if s.ReachesAck seg then (s.processAck env seg).1 else s

/-- `ctcp_receive` gets to its data part. -/
def ReachesData (env : Env) (s : CtcpState) (seg : CtcpSegment) : Prop :=
  s.ReachesAck seg ∧ (s.processAck env seg).2 = false

instance (env : Env) (s : CtcpState) (seg : CtcpSegment) : Decidable (s.ReachesData env seg) :=
  inferInstanceAs (Decidable (_ ∧ _))

end CtcpState

theorem ackPart_sends (env : Env) (s : CtcpState) (seg : CtcpSegment) :
    Sends env s (s.ackPart env seg) := by
  rw [CtcpState.ackPart]
  split
  · exact processAck_sends env s seg
  · exact .refl

/-- Where the data part is reached, it is all that follows the ACK part. -/
theorem receive_data {s : CtcpState} {seg : CtcpSegment} (h : s.ReachesData env seg) :
    s.receive env seg = (s.ackPart env seg).processData env seg := by
  obtain ⟨hack, hlate⟩ := h
  rw [CtcpState.receive, if_neg hack.1, if_neg hack.2, CtcpState.ackPart, if_pos hack]
  simp only [hlate, Bool.false_eq_true, if_false]

/-- Where the data part is not reached, the acknowledgement number stays, nothing
else follows the ACK part but the answer to a FIN, and no data is given out. -/
theorem receive_no_data {s : CtcpState} {seg : CtcpSegment} (h : ¬ s.ReachesData env seg) :
    (s.receive env seg).mostRecentReceivedAcknowledgement = s.mostRecentReceivedAcknowledgement ∧
    ((s.receive env seg).trace = (s.ackPart env seg).trace ∨
      ∃ position c, c.ackno = s.mostRecentReceivedAcknowledgement ∧
        (s.receive env seg).trace =
          (s.ackPart env seg).trace ++ [.control position c, .output []]) := by
  have same := sends_sameReceiver (processAck_sends env s seg)
  rw [CtcpState.receive, CtcpState.ackPart]
  by_cases hfin : seg.hasFlag thFin ∧ s.connectionState = 0
  · have hack : ¬ s.ReachesAck seg := fun hack => hack.1 hfin
    rw [if_pos hfin, if_neg hack]
    refine ⟨rfl, .inr ⟨s.position, s.makeSegment env [] thAck.toNat, rfl, ?_⟩⟩
    exact List.append_assoc _ _ _
  · rw [if_neg hfin]
    by_cases hclosed : s.connectionState = 1
    · have hack : ¬ s.ReachesAck seg := fun hack => hack.2 hclosed
      rw [if_pos hclosed, if_neg hack]
      exact ⟨rfl, .inl rfl⟩
    · have hack : s.ReachesAck seg := ⟨hfin, hclosed⟩
      have early : (s.processAck env seg).2 = true := by
        cases hr : (s.processAck env seg).2 with
        | true => rfl
        | false => exact absurd ⟨hack, hr⟩ h
      rw [if_neg hclosed, if_pos hack]
      simp only [early, if_true]
      exact ⟨same.received, .inl trivial⟩

/-- The data part of a segment that carries data and is no duplicate: the
ACK, then the output. -/
theorem processData_accepts (env : Env) {s : CtcpState} {seg : CtcpSegment}
    (len : seg.len.toNat = segmentHdrSize + seg.data.length) (data : seg.data ≠ [])
    (accepted : ¬ s.isDuplicate seg) :
    ∃ position c, c.ackno = seg.seqno + UInt32.ofNat seg.data.length ∧
      (s.processData env seg).trace =
        s.trace ++ [.control position c, .output (CtcpState.strncpy seg.data)] := by
  have hlen : segmentHdrSize < seg.len.toNat := by
    have := List.length_pos_iff.mpr data
    omega
  refine ⟨s.position, (s.recordSeqno seg).makeSegment env [] thAck.toNat, ?_, ?_⟩
  · exact (processData_spec env s len).2.2.1 ▸ by
      rw [CtcpState.processData, if_pos ⟨hlen, accepted⟩]
      rfl
  · rw [CtcpState.processData, if_pos ⟨hlen, accepted⟩, dataBytes_eq len]
    exact List.append_assoc _ _ _

/-- The data part of any other segment sends nothing and gives nothing out. -/
theorem processData_ignores (env : Env) {s : CtcpState} {seg : CtcpSegment}
    (len : seg.len.toNat = segmentHdrSize + seg.data.length)
    (ignored : ¬ (seg.data ≠ [] ∧ ¬ s.isDuplicate seg)) :
    (s.processData env seg).trace = s.trace := by
  rw [CtcpState.processData, if_neg]
  · rfl
  · rintro ⟨hlen, accepted⟩
    refine ignored ⟨fun hnil => ?_, accepted⟩
    rw [hnil, List.length_nil] at len
    omega

/-! ## A connection and its ledger -/

/-- A segment given to `conn_send`: its acknowledgement number, and how many
bytes were accepted contiguously. -/
structure Emission where
  ackno : UInt32
  accepted : Nat
  deriving DecidableEq, Repr

/-- A connection, the pieces of its peer's stream that `conn_output`
accepted, and the segments it sent. -/
structure Acking where
  conn : CtcpState
  accepted : List (Nat × Nat)
  emitted : List Emission
  deriving DecidableEq, Repr

/-- What can happen to a connection that receives a stream. -/
inductive AckOp where
  /-- a call other than `ctcp_receive` -/
  | call (op : Op)
  /-- `ctcp_receive`, for a segment at this position of the peer's stream;
  `conn_output` returns `result` if it is called -/
  | arrive (position : Nat) (seg : CtcpSegment) (result : Int)
  deriving DecidableEq, Repr

/-- The segments with the number of bytes accepted. -/
def emissions (count : Nat) (segs : List CtcpSegment) : List Emission :=
  segs.map fun seg => ⟨seg.ackno, count⟩

/-- The piece that `conn_output` accepts of data at this position: as many
bytes as it returns, none if it returns -1. -/
def acceptedPiece (position : Nat) (result : Int) (data : List UInt8) : Nat × Nat :=
  (position, min result.toNat data.length)

namespace Acking

/-- The bytes of the peer's stream accepted without a gap. -/
def count (a : Acking) : Nat := contiguous a.accepted

/-- The state after a step. -/
def apply (env : Env) (a : Acking) : AckOp → Acking
  | .call op =>
      { a with
        conn := a.conn.apply env op
        emitted := a.emitted ++ emissions a.count (newSegments a.conn (a.conn.apply env op)) }
  | .arrive position seg result =>
      let middle := a.conn.ackPart env seg
      let conn := a.conn.receive env seg
      let outputs := (newEvents a.conn conn).filterMap Event.output?
      let accepted := a.accepted ++ outputs.map (acceptedPiece position result)
      { conn
        accepted
        emitted := a.emitted ++ emissions a.count (newSegments a.conn middle) ++
          emissions (contiguous accepted) (newSegments middle conn) }

/-- A step is a call on a live connection; a segment of the peer's stream has
the sequence number of its position and a true length field. -/
def Enabled (a : Acking) : AckOp → Prop
  | .call op => a.conn.alive = true ∧ op.receives = false
  | .arrive position seg _ =>
      a.conn.alive = true ∧ seg.seqno = UInt32.ofNat (1 + position) ∧
        seg.len.toNat = segmentHdrSize + seg.data.length

instance (a : Acking) : (op : AckOp) → Decidable (a.Enabled op)
  | .call _ | .arrive _ _ _ => inferInstanceAs (Decidable (_ ∧ _))

/-- The segment ends where the accepted bytes end, or it continues them
without a gap, is no duplicate, and `conn_output` takes all of it. -/
def Honest (a : Acking) (position : Nat) (seg : CtcpSegment) (result : Int) : Prop :=
  position + seg.data.length = a.count ∨
    position ≤ a.count ∧ a.count < position + seg.data.length ∧
      ¬ a.conn.isDuplicate seg ∧ seg.data.length ≤ result

instance (a : Acking) (position : Nat) (seg : CtcpSegment) (result : Int) :
    Decidable (a.Honest position seg result) :=
  inferInstanceAs (Decidable (_ ∨ _))

/-- The condition on a step: nothing queued under an older acknowledgement
number is sent, and a segment that gets to the data part is `Honest`. -/
def Orderly (env : Env) (a : Acking) : AckOp → Prop
  | .call op => Fresh a.conn (a.conn.apply env op)
  | .arrive position seg result =>
      Fresh a.conn (a.conn.ackPart env seg) ∧
        (a.conn.ReachesData env seg → a.Honest position seg result)

instance (env : Env) (a : Acking) : (op : AckOp) → Decidable (a.Orderly env op)
  | .call _ => inferInstanceAs (Decidable (Fresh _ _))
  | .arrive _ _ _ => inferInstanceAs (Decidable (_ ∧ _))

end Acking

/-- One step of a connection with its ledger. -/
def AckStep (env : Env) (a : Acking) (op : AckOp) (a' : Acking) : Prop :=
  a.Enabled op ∧ a' = a.apply env op

/-! ## The invariant -/

/-- The acknowledgement number is true: what it covers is exactly what was
accepted. So was every one sent. -/
structure AckInv (a : Acking) : Prop where
  stamp : a.conn.mostRecentReceivedAcknowledgement = UInt32.ofNat (1 + a.count)
  exact : ∀ k, Covered a.accepted k ↔ k < a.count
  honest : ∀ x ∈ a.emitted, x.ackno = UInt32.ofNat (1 + x.accepted)
  sorted : (a.emitted.map Emission.accepted).Pairwise (· ≤ ·)
  past : ∀ x ∈ a.emitted, x.accepted ≤ a.count

/-- More segments with the present number of accepted bytes, on top of a true
ledger. -/
theorem ledger_append {emitted : List Emission} {count : Nat} {segs : List CtcpSegment}
    (honest : ∀ x ∈ emitted, x.ackno = UInt32.ofNat (1 + x.accepted))
    (sorted : (emitted.map Emission.accepted).Pairwise (· ≤ ·))
    (past : ∀ x ∈ emitted, x.accepted ≤ count)
    (stamped : ∀ seg ∈ segs, seg.ackno = UInt32.ofNat (1 + count)) :
    (∀ x ∈ emitted ++ emissions count segs, x.ackno = UInt32.ofNat (1 + x.accepted)) ∧
    ((emitted ++ emissions count segs).map Emission.accepted).Pairwise (· ≤ ·) ∧
    ∀ x ∈ emitted ++ emissions count segs, x.accepted ≤ count := by
  have new : ∀ x ∈ emissions count segs,
      x.ackno = UInt32.ofNat (1 + count) ∧ x.accepted = count := by
    intro x hx
    obtain ⟨seg, hseg, rfl⟩ := List.mem_map.mp hx
    exact ⟨stamped seg hseg, rfl⟩
  refine ⟨fun x hx => ?_, ?_, fun x hx => ?_⟩
  · rcases List.mem_append.mp hx with hx | hx
    · exact honest x hx
    · rw [(new x hx).2]
      exact (new x hx).1
  · rw [List.map_append, List.pairwise_append]
    refine ⟨sorted, ?_, ?_⟩
    · rw [List.pairwise_map]
      exact List.pairwise_of_forall_mem_list fun x hx y hy => by rw [(new x hx).2, (new y hy).2]
    · intro n hn m hm
      obtain ⟨x, hx, rfl⟩ := List.mem_map.mp hn
      obtain ⟨y, hy, rfl⟩ := List.mem_map.mp hm
      rw [(new y hy).2]
      exact past x hx
  · rcases List.mem_append.mp hx with hx | hx
    · exact past x hx
    · exact (new x hx).2.le

/-- A segment that gives its data to `conn_output` brings the count to its
end exactly if it is `Honest`. -/
theorem count_accepts_iff {a : Acking} (h : AckInv a) {position : Nat} {seg : CtcpSegment}
    {result : Int} (accepted : ¬ a.conn.isDuplicate seg) :
    contiguous (a.accepted ++ [acceptedPiece position result (CtcpState.strncpy seg.data)]) =
        position + seg.data.length ↔
      a.Honest position seg result := by
  rw [acceptedPiece, contiguous_append h.exact, length_strncpy, Acking.Honest]
  simp only [accepted, not_false_eq_true, true_and]
  split <;> omega

/-- Any other segment leaves the count where it is: at its end exactly if it
is `Honest`. -/
theorem count_ignores_iff {a : Acking} {position : Nat} {seg : CtcpSegment} {result : Int}
    (ignored : ¬ (seg.data ≠ [] ∧ ¬ a.conn.isDuplicate seg)) :
    a.count = position + seg.data.length ↔ a.Honest position seg result := by
  rw [Acking.Honest]
  by_cases hnil : seg.data = []
  · rw [hnil, List.length_nil]
    omega
  · have dup : a.conn.isDuplicate seg := by
      by_contra hdup
      exact ignored ⟨hnil, hdup⟩
    constructor
    · exact fun h => .inl h.symm
    · rintro (h | ⟨-, -, hdup, -⟩)
      · exact h.symm
      · exact absurd dup hdup

theorem ackInv_call {a : Acking} (h : AckInv a) {op : Op} (other : op.receives = false)
    (fresh : Fresh a.conn (a.conn.apply env op)) : AckInv (a.apply env (.call op)) := by
  obtain ⟨es, htrace, stamped⟩ := apply_stamped env a.conn other
  have ackno := newSegments_ackno htrace stamped fresh
  obtain ⟨honest, sorted, past⟩ := ledger_append h.honest h.sorted h.past
    fun seg hseg => (ackno seg hseg).trans h.stamp
  have stamp := (apply_sameReceiver env a.conn other).received.trans h.stamp
  exact ⟨stamp, h.exact, honest, sorted, past⟩

/-- The ledger after a segment arrived: what its ACK part sent carries the
old number, what its data part sent the new one. -/
theorem ackInv_arrive_of {a : Acking} (h : AckInv a) {position : Nat} {seg : CtcpSegment}
    {result : Int} {count : Nat} (fresh : Fresh a.conn (a.conn.ackPart env seg))
    (stamp : (a.conn.receive env seg).mostRecentReceivedAcknowledgement = UInt32.ofNat (1 + count))
    (grow : a.count ≤ count)
    (exact : ∀ k, Covered (a.apply env (.arrive position seg result)).accepted k ↔ k < count)
    (sent : ∀ c ∈ newSegments (a.conn.ackPart env seg) (a.conn.receive env seg),
      c.ackno = UInt32.ofNat (1 + count)) :
    AckInv (a.apply env (.arrive position seg result)) := by
  obtain ⟨es, htrace, stamped⟩ := sends_stamped (ackPart_sends env a.conn seg)
  have ackno := newSegments_ackno htrace stamped fresh
  obtain ⟨honest, sorted, past⟩ := ledger_append h.honest h.sorted h.past
    fun c hc => (ackno c hc).trans h.stamp
  obtain ⟨honest', sorted', past'⟩ := ledger_append honest sorted
    (fun x hx => (past x hx).trans grow) sent
  have hcount : (a.apply env (.arrive position seg result)).count = count :=
    contiguous_eq (fun k hk => (exact k).mpr hk) fun hc => Nat.lt_irrefl _ ((exact count).mp hc)
  have emitted : (a.apply env (.arrive position seg result)).emitted =
      a.emitted ++ emissions a.count (newSegments a.conn (a.conn.ackPart env seg)) ++
        emissions count (newSegments (a.conn.ackPart env seg) (a.conn.receive env seg)) := by
    rw [← hcount]
    rfl
  refine ⟨?_, ?_, ?_, ?_, ?_⟩
  · rw [hcount]
    exact stamp
  · rw [hcount]
    exact exact
  · rw [emitted]
    exact honest'
  · rw [emitted]
    exact sorted'
  · rw [emitted, hcount]
    exact past'

/-- What an arriving segment adds to the accepted pieces. -/
theorem accepted_arrive {a : Acking} {seg : CtcpSegment} (position : Nat) (result : Int)
    {es : List Event}
    (h : (a.conn.receive env seg).trace = (a.conn.ackPart env seg).trace ++ es) :
    (a.apply env (.arrive position seg result)).accepted =
      a.accepted ++ (es.filterMap Event.output?).map (acceptedPiece position result) := by
  obtain ⟨es', htrace, stamped⟩ := sends_stamped (ackPart_sends env a.conn seg)
  have quiet : es'.filterMap Event.output? = [] := by
    rw [List.filterMap_eq_nil_iff]
    intro e he
    have := stamped e he
    cases e with
    | output => exact this.elim
    | _ => rfl
  rw [htrace, List.append_assoc] at h
  simp only [Acking.apply, newEvents_eq h, List.filterMap_append, quiet, List.nil_append]

/-- The data part does nothing but write the count it found. -/
theorem ackInv_arrive_silent {a : Acking} (h : AckInv a) (position : Nat) {seg : CtcpSegment}
    (result : Int) (fresh : Fresh a.conn (a.conn.ackPart env seg))
    (stamp : (a.conn.receive env seg).mostRecentReceivedAcknowledgement =
      UInt32.ofNat (1 + a.count))
    (trace : (a.conn.receive env seg).trace = (a.conn.ackPart env seg).trace) :
    AckInv (a.apply env (.arrive position seg result)) := by
  rw [← List.append_nil (a.conn.ackPart env seg).trace] at trace
  have accepted := accepted_arrive position result trace
  refine ackInv_arrive_of h fresh stamp le_rfl ?_ ?_
  · intro k
    rw [accepted]
    simpa using h.exact k
  · intro d hd
    rw [newSegments, newEvents_eq trace] at hd
    cases hd

/-- The data part sends one segment with the count that the `data` it gives to
`conn_output` leads to. -/
theorem ackInv_arrive_answered {a : Acking} (h : AckInv a) {position : Nat} {seg : CtcpSegment}
    {result : Int} {count sentAt : Nat} {c : CtcpSegment} {data : List UInt8}
    (fresh : Fresh a.conn (a.conn.ackPart env seg))
    (stamp : (a.conn.receive env seg).mostRecentReceivedAcknowledgement = UInt32.ofNat (1 + count))
    (trace : (a.conn.receive env seg).trace =
      (a.conn.ackPart env seg).trace ++ [.control sentAt c, .output data])
    (ackno : c.ackno = UInt32.ofNat (1 + count)) (grow : a.count ≤ count)
    (covers : ∀ k, k < a.count ∨ position ≤ k ∧ k < position + min result.toNat data.length ↔
      k < count) :
    AckInv (a.apply env (.arrive position seg result)) := by
  have accepted : (a.apply env (.arrive position seg result)).accepted =
      a.accepted ++ [(position, min result.toNat data.length)] :=
    accepted_arrive position result trace
  apply ackInv_arrive_of h fresh stamp grow
  case exact =>
    intro k
    rw [accepted, covered_append, h.exact, covers]
  case sent =>
    intro d hd
    rw [newSegments, newEvents_eq trace] at hd
    obtain rfl : d = c := by simpa [Event.connSend?] using hd
    exact ackno

theorem ackInv_arrive {a : Acking} (h : AckInv a) {position : Nat} {seg : CtcpSegment}
    {result : Int} (seqno : seg.seqno = UInt32.ofNat (1 + position))
    (len : seg.len.toNat = segmentHdrSize + seg.data.length)
    (fresh : Fresh a.conn (a.conn.ackPart env seg))
    (honest : a.conn.ReachesData env seg → a.Honest position seg result) :
    AckInv (a.apply env (.arrive position seg result)) := by
  have same := sends_sameReceiver (ackPart_sends env a.conn seg)
  by_cases hdata : a.conn.ReachesData env seg
  · have hhonest := honest hdata
    have hrec := receive_data hdata
    have hdup := same.isDuplicate_iff seg
    have number : UInt32.ofNat (1 + (position + seg.data.length)) =
        seg.seqno + UInt32.ofNat seg.data.length := by
      rw [seqno, ← UInt32.ofNat_add, Nat.add_assoc]
    have stamp : (a.conn.receive env seg).mostRecentReceivedAcknowledgement =
        UInt32.ofNat (1 + (position + seg.data.length)) := by
      rw [hrec, number]
      exact (processData_spec env _ len).2.2.1
    by_cases hacc : seg.data ≠ [] ∧ ¬ a.conn.isDuplicate seg
    · -- the data goes to `conn_output`, and the count to the end of the segment
      obtain ⟨pos, c, hc, htrace⟩ := processData_accepts env len hacc.1 (hdup.not.mpr hacc.2)
      rw [← hrec] at htrace
      apply ackInv_arrive_answered h fresh stamp htrace (hc.trans number.symm)
      case grow => rcases hhonest with hend | ⟨-, hlt, -, -⟩ <;> omega
      case covers =>
        intro k
        rw [length_strncpy]
        rcases hhonest with hend | ⟨hle, hlt, -, hall⟩ <;> omega
    · -- nothing goes out, and the segment ends at the count
      have htrace := processData_ignores env len fun hh => hacc ⟨hh.1, hdup.not.mp hh.2⟩
      rw [← hrec] at htrace
      have hcount := (count_ignores_iff hacc).mpr hhonest
      rw [← hcount] at stamp
      exact ackInv_arrive_silent h position result fresh stamp htrace
  · obtain ⟨hstamp, hquiet⟩ := receive_no_data hdata
    have stamp := hstamp.trans h.stamp
    rcases hquiet with htrace | ⟨pos, c, hc, htrace⟩
    · exact ackInv_arrive_silent h position result fresh stamp htrace
    · apply ackInv_arrive_answered h fresh stamp htrace (hc.trans h.stamp) le_rfl
      intro k
      rw [List.length_nil]
      omega

/-! ## Runs -/

/-- A connection that has received nothing. -/
def Acking.start (conn : CtcpState) : Acking := ⟨conn, [], []⟩

theorem ackInv_init (block : Bbr) (config : CtcpConfig) :
    AckInv (.start (ctcpInit env block config)) :=
  ⟨rfl, fun k => ⟨nofun, fun hk => absurd hk (Nat.not_lt_zero k)⟩, nofun, .nil, nofun⟩

theorem ackInv_step {a a' : Acking} {op : AckOp} (h : AckInv a) (hstep : AckStep env a op a')
    (orderly : a.Orderly env op) : AckInv a' := by
  obtain ⟨enabled, rfl⟩ := hstep
  cases op with
  | call op => exact ackInv_call h enabled.2 orderly
  | arrive position seg result =>
    exact ackInv_arrive h enabled.2.1 enabled.2.2 orderly.1 orderly.2

/-- **Acknowledgement honesty.** In every run whose steps are all `Orderly`,
every segment sent carries one more than the number of bytes that were
accepted contiguously; these numbers never decrease and are never more than
what is accepted. -/
theorem ack_honesty {block : Bbr} {config : CtcpConfig} {ops : List AckOp} {a : Acking}
    (h : Run (Guarded (AckStep env) (Acking.Orderly env))
      (.start (ctcpInit env block config)) ops a) :
    (∀ x ∈ a.emitted, x.ackno = UInt32.ofNat (1 + x.accepted)) ∧
    (a.emitted.map Emission.accepted).Pairwise (· ≤ ·) ∧
    ∀ x ∈ a.emitted, x.accepted ≤ contiguous a.accepted := by
  have inv : AckInv a :=
    Run.invariant AckInv (ackInv_init block config) (fun ht hs => ackInv_step ht hs.1 hs.2) h
  exact ⟨inv.honest, inv.sorted, inv.past⟩

/-- A segment arrives twice, `ctcp_output` acknowledges it once more, and
data is sent. -/
theorem ack_honesty_duplicate :
    let ops : List AckOp := [.arrive 0 ⟨1, 1, 22, thAck, 1440, 0, [97, 98]⟩ 2,
      .arrive 0 ⟨1, 1, 22, thAck, 1440, 0, [97, 98]⟩ 2, .call (.control 16),
      .call (.send ⟨[99], by decide⟩ 16)]
    let a := ops.foldl (Acking.apply (.plain .little)) (.start (.fresh (.plain .little)))
    (∀ x ∈ a.emitted, x.ackno = UInt32.ofNat (1 + x.accepted)) ∧
    (a.emitted.map Emission.accepted).Pairwise (· ≤ ·) ∧
    ∀ x ∈ a.emitted, x.accepted ≤ contiguous a.accepted :=
  ack_honesty
    (run_foldl (fun a op => decide (a.Enabled op ∧ a.Orderly (.plain .little) op))
      (fun _ _ h => ⟨⟨(of_decide_eq_true h).1, rfl⟩, (of_decide_eq_true h).2⟩)
      (by decide +kernel))

/-- One byte arrives, `conn_output` has no room for it, and it is
acknowledged all the same. -/
theorem refused_data_is_acknowledged :
    ¬ ∀ (ops : List AckOp) (a : Acking),
      Run (AckStep (.plain .little)) (.start (.fresh (.plain .little))) ops a →
      (∀ x ∈ a.emitted, x.ackno = UInt32.ofNat (1 + x.accepted)) ∧
      (a.emitted.map Emission.accepted).Pairwise (· ≤ ·) ∧
      ∀ x ∈ a.emitted, x.accepted ≤ contiguous a.accepted := by
  intro general
  have h := general [.arrive 0 ⟨1, 1, 21, thAck, 1440, 0, [97]⟩ 0] _
    (run_foldl (fun a op => decide (a.Enabled op)) (fun _ _ h => ⟨of_decide_eq_true h, rfl⟩)
      (by decide +kernel))
  revert h
  decide +kernel

end NetLabs.Ctcp
