/-
NetLabs.Ctcp.SequenceComparison — the two comparisons of sequence numbers in
`ctcp_receive`, on streams of any length.

A sequence number is the position in the stream plus one, modulo 2^32. The
code compares two of them as plain numbers: the sequence number of a queued
segment with the acknowledgement number that arrives, and the sequence number
that arrives with the watermark. `Located` is a connection that also knows the
position its watermark stands for, and an `Arrival` a segment that knows the
positions its two numbers stand for; the code never looks at either. The tests
agree with the positions exactly if the positions compared lie in one epoch of
2^32 numbers (`sequence_tests_iff`).
-/
import NetLabs.Lib.Serial
import NetLabs.Ctcp.AckHonesty
import NetLabs.Ctcp.Delivery

namespace NetLabs.Ctcp

open NetLabs.Lib

variable {env : Env}

/-! ## Positions -/

/-- The sequence number of a position. -/
def wire (position : Int) : UInt32 := UInt32.ofInt (1 + position)

theorem wire_ofNat (position : Nat) : wire position = UInt32.ofNat (1 + position) := by
  rw [wire, ← ofInt_ofNat, Int.natCast_add]
  rfl

/-- A segment that arrives, with the positions of its first byte and of the
byte it acknowledges up to. -/
structure Arrival where
  segment : CtcpSegment
  position : Int
  acknowledged : Int
  seqno : segment.seqno = wire position
  ackno : segment.ackno = wire acknowledged

/-- A connection and the position `second_most_recent_acknowledgement` stands
for: the end of the last segment it did not take for a duplicate. -/
structure Located where
  conn : CtcpState
  accepted : Int
  deriving DecidableEq, Repr

/-- What a connection meets. -/
inductive LocatedOp where
  | arrive (a : Arrival)
  /-- a call other than `ctcp_receive` -/
  | other (op : Op) (quiet : op.receives = false)

def LocatedOp.op : LocatedOp → Op
  | .arrive a => .receive a.segment
  | .other op _ => op

/-- The state after a call. The watermark follows the segments whose data the
code gets to and that it does not take for duplicates. -/
def Located.apply (env : Env) (l : Located) : LocatedOp → Located
  | .arrive a =>
      { conn := l.conn.receive env a.segment
        accepted :=
          if l.conn.ReachesData env a.segment ∧ ¬ l.conn.isDuplicate a.segment then
            a.position + CtcpState.dataLen a.segment
          else l.accepted }
  | .other op _ => { l with conn := l.conn.apply env op }

/-- A call on a live connection. -/
def Located.Step (env : Env) (l : Located) (call : LocatedOp) (l' : Located) : Prop :=
  l.conn.alive = true ∧ l' = l.apply env call

/-- A new connection: nothing is accepted. -/
def Located.init (env : Env) (block : Bbr) (config : CtcpConfig) : Located where
  conn := ctcpInit env block config
  accepted := 0

/-! ## The numbers stand for the positions -/

/-- The fields hold the sequence numbers of their positions. -/
structure LocatedInv (l : Located) : Prop where
  stream : StreamInv l.conn
  watermark : l.conn.secondMostRecentAcknowledgement = wire l.accepted

theorem locatedInv_init (block : Bbr) (config : CtcpConfig) :
    LocatedInv (.init env block config) :=
  ⟨streamInv_init block config, rfl⟩

/-- Where the data part is not reached, the watermark stays. -/
theorem receive_watermark {s : CtcpState} {seg : CtcpSegment} (h : ¬ s.ReachesData env seg) :
    (s.receive env seg).secondMostRecentAcknowledgement = s.secondMostRecentAcknowledgement := by
  apply receive_elim (P := fun t =>
    t.secondMostRecentAcknowledgement = s.secondMostRecentAcknowledgement)
  case fin =>
    intro _ _
    rfl
  case closed =>
    intro _
    rfl
  case early =>
    intro _ _ _
    exact (sends_sameReceiver (processAck_sends env s seg)).watermark
  case late =>
    intro notFin notClosed goesOn
    exact absurd ⟨⟨notFin, notClosed⟩, goesOn⟩ h

/-- Where the data part is reached, the watermark follows what is no duplicate. -/
theorem processData_watermark (s : CtcpState) (seg : CtcpSegment) :
    (s.processData env seg).secondMostRecentAcknowledgement =
      if s.isDuplicate seg then s.secondMostRecentAcknowledgement
      else seg.seqno + UInt32.ofInt (CtcpState.dataLen seg) := by
  unfold CtcpState.processData
  split <;> rfl

theorem locatedInv_arrive {l : Located} (h : LocatedInv l) (a : Arrival) :
    LocatedInv (l.apply env (.arrive a)) := by
  refine ⟨(streamInv_apply env h.stream (.receive a.segment)).1, ?_⟩
  unfold Located.apply
  dsimp only
  by_cases data : l.conn.ReachesData env a.segment
  · have same := sends_sameReceiver (ackPart_sends env l.conn a.segment)
    rw [receive_data data, processData_watermark, same.watermark]
    by_cases dup : l.conn.isDuplicate a.segment
    · rw [if_pos ((same.isDuplicate_iff a.segment).mpr dup), if_neg fun both => both.2 dup]
      exact h.watermark
    · rw [if_neg fun again => dup ((same.isDuplicate_iff a.segment).mp again),
        if_pos ⟨data, dup⟩, a.seqno, wire, wire, ← UInt32.ofInt_add, Int.add_assoc]
  · rw [receive_watermark data, if_neg fun both => data both.1]
    exact h.watermark

theorem locatedInv_step {l l' : Located} {call : LocatedOp} (h : LocatedInv l)
    (hstep : Located.Step env l call l') : LocatedInv l' := by
  obtain ⟨-, rfl⟩ := hstep
  cases call with
  | arrive a => exact locatedInv_arrive h a
  | other op quiet =>
    have same := apply_sameReceiver env l.conn quiet
    exact ⟨(streamInv_apply env h.stream op).1, same.watermark.trans h.watermark⟩

/-- What is located is a run of the connection. -/
theorem Located.run_conn {l l' : Located} {calls : List LocatedOp}
    (h : Run (Located.Step env) l calls l') :
    Run (NetLabs.Ctcp.Step env) l.conn (calls.map LocatedOp.op) l'.conn := by
  induction h with
  | nil => exact .nil
  | snoc _ hstep ih =>
    rw [List.map_append]
    refine .snoc ih ?_
    obtain ⟨alive, rfl⟩ := hstep
    refine ⟨alive, ?_⟩
    rename_i call _
    cases call <;> rfl

/-! ## The tests -/

/-- Fewer than 2^31 bytes lie between the positions that are compared. -/
structure FewOutstanding (l : Located) (a : Arrival) : Prop where
  sent : ∀ b ∈ l.conn.sendQueue,
    (b.position : Int) < a.acknowledged + 2 ^ 31 ∧ a.acknowledged < b.position + 2 ^ 31
  received : a.position < l.accepted + 2 ^ 31 ∧ l.accepted < a.position + 2 ^ 31

/-- The tests of `ctcp_receive` answer as the positions do. -/
structure TestsAgree (l : Located) (a : Arrival) : Prop where
  acknowledged : ∀ b ∈ l.conn.sendQueue,
    b.segment.seqno < a.segment.ackno ↔ (b.position : Int) < a.acknowledged
  duplicate : l.conn.isDuplicate a.segment ↔ a.position < l.accepted

/-- The epoch of the sequence number of a position. -/
def seqnoEpoch (position : Int) : Int := epoch (2 ^ 32) (1 + position)

/-- The positions that are compared lie in one epoch. -/
structure SameEpoch (l : Located) (a : Arrival) : Prop where
  sent : ∀ b ∈ l.conn.sendQueue, seqnoEpoch b.position = seqnoEpoch a.acknowledged
  received : seqnoEpoch a.position = seqnoEpoch l.accepted

/-- Two sequence numbers compare as their positions exactly in one epoch. -/
theorem wire_lt_wire_iff {x y : Int} (above : x < y + 2 ^ 31) (below : y < x + 2 ^ 31) :
    (wire x < wire y ↔ x < y) ↔ seqnoEpoch x = seqnoEpoch y := by
  have shift : x < y ↔ 1 + x < 1 + y := by omega
  rw [wire, wire, shift]
  exact ofInt_lt_ofInt_iff (by omega) (by omega)

/-- **Plain comparison of sequence numbers**: in every state of every run and
for every segment that arrives, with fewer than 2^31 bytes outstanding, the
tests agree with the positions exactly if these lie in one epoch. -/
theorem sequence_tests_iff {block : Bbr} {config : CtcpConfig} {calls : List LocatedOp}
    {l : Located} (h : Run (Located.Step env) (.init env block config) calls l) {a : Arrival}
    (few : FewOutstanding l a) : TestsAgree l a ↔ SameEpoch l a := by
  have inv : LocatedInv l :=
    Run.invariant LocatedInv (locatedInv_init block config) locatedInv_step h
  have queued : ∀ b ∈ l.conn.sendQueue,
      (b.segment.seqno < a.segment.ackno ↔ (b.position : Int) < a.acknowledged) ↔
        seqnoEpoch b.position = seqnoEpoch a.acknowledged := by
    intro b hb
    rw [(inv.stream.queued b hb).seqno, ← wire_ofNat, a.ackno]
    exact wire_lt_wire_iff (few.sent b hb).1 (few.sent b hb).2
  have arrived : (l.conn.isDuplicate a.segment ↔ a.position < l.accepted) ↔
      seqnoEpoch a.position = seqnoEpoch l.accepted := by
    unfold CtcpState.isDuplicate
    rw [a.seqno, inv.watermark]
    exact wire_lt_wire_iff few.received.1 few.received.2
  constructor
  · intro agree
    exact ⟨fun b hb => (queued b hb).mp (agree.acknowledged b hb), arrived.mp agree.duplicate⟩
  · intro same
    exact ⟨fun b hb => (queued b hb).mpr (same.sent b hb), arrived.mpr same.received⟩

/-- The segment with the byte at a position of the peer's stream, which
acknowledges what stands before `acknowledged`. -/
def peerByte (position acknowledged : Int) : Arrival where
  segment :=
    { CtcpState.fresh (.plain .little) with
      mostRecentSequenceNumber := wire position
      mostRecentReceivedAcknowledgement := wire acknowledged
    }.makeSegment (.plain .little) [97] thAck.toNat
  position
  acknowledged
  seqno := rfl
  ackno := rfl

/-- The connection `CtcpState.fresh` after some calls. -/
def locatedAfter (calls : List LocatedOp) : Located :=
  calls.foldl (Located.apply (.plain .little))
    (.init (.plain .little) .cleared { sendWindow := 1440, rtTimeout := 200 })

theorem run_locatedAfter {calls : List LocatedOp}
    (h : allowed (fun l _ => l.conn.alive) (Located.apply (.plain .little))
      (.init (.plain .little) .cleared { sendWindow := 1440, rtTimeout := 200 }) calls = true) :
    Run (Located.Step (.plain .little))
      (.init (.plain .little) .cleared { sendWindow := 1440, rtTimeout := 200 }) calls
      (locatedAfter calls) :=
  run_foldl _ (fun _ _ alive => ⟨alive, rfl⟩) h

/-- A byte is sent, and the peer's second byte arrives with its ACK. -/
theorem sequence_tests_iff_sent :
    let calls : List LocatedOp :=
      [.other (.send ⟨[97], by decide⟩ 16) rfl, .arrive (peerByte 0 0)]
    TestsAgree (locatedAfter calls) (peerByte 1 1) := by
  intro calls
  have few : FewOutstanding (locatedAfter calls) (peerByte 1 1) :=
    ⟨by decide +kernel, by decide +kernel⟩
  have same : SameEpoch (locatedAfter calls) (peerByte 1 1) :=
    ⟨by decide +kernel, by decide +kernel⟩
  exact (sequence_tests_iff (run_locatedAfter (by decide +kernel)) few).mpr same

/-- The last byte before the wrap-around arrives twice, and is given to
`conn_output` twice. -/
theorem retransmission_after_wrap :
    let calls : List LocatedOp :=
      [.arrive (peerByte (2 ^ 31 - 1) 0), .arrive (peerByte (2 ^ 32 - 2) 0)]
    let a : Arrival := peerByte (2 ^ 32 - 2) 0
    FewOutstanding (locatedAfter calls) a ∧ ¬ TestsAgree (locatedAfter calls) a ∧
      ((locatedAfter calls).apply (.plain .little) (.arrive a)).conn.delivered = [97, 97, 97] ∧
      ¬ ∀ (env : Env) (block : Bbr) (config : CtcpConfig) (calls : List LocatedOp) (l : Located)
        (a : Arrival), Run (Located.Step env) (.init env block config) calls l →
          FewOutstanding l a → TestsAgree l a := by
  intro calls a
  have few : FewOutstanding (locatedAfter calls) a := ⟨by decide +kernel, by decide +kernel⟩
  have differ : ¬ ((locatedAfter calls).conn.isDuplicate a.segment ↔
      a.position < (locatedAfter calls).accepted) := by
    decide +kernel
  have disagree : ¬ TestsAgree (locatedAfter calls) a := fun agree => differ agree.duplicate
  refine ⟨few, disagree, by decide +kernel, fun always => disagree ?_⟩
  exact always _ _ _ _ _ a (run_locatedAfter (by decide +kernel)) few

end NetLabs.Ctcp
