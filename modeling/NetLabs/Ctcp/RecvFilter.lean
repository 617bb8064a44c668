/-
NetLabs.Ctcp.RecvFilter — which connection `recv_filter` finds for a segment.

`convert_to_ctcp` counts from the initial sequence numbers modulo `2 ^ 32`.
`recv_filter` compares the numbers as they are, so it drops whatever comes
after one of the two counts has passed 0. Both initial numbers decide about
that, and each host chooses one of them.

It returns the first connection of the list that matches. A client that
connects again from the same port is the more recent one, and takes the
segments of the older connection whenever their numbers are high enough.
-/
import NetLabs.Lib.Serial
import NetLabs.Ctcp.MainLoop

namespace NetLabs.Ctcp

open NetLabs.Lib

namespace Host

variable {h : Host} {connections : List Connection} {buf : List UInt8} {c : Connection}

/-! ## Segments of a connection -/

/-- What was received is a segment of the connection: a packet from its peer
to this host, neither SYN nor RST, whose sequence and acknowledgment numbers
are `seqno` and `ackno` ahead of the initial ones. -/
structure SegmentOf (h : Host) (c : Connection) (buf : List UInt8) (seqno ackno : Nat) :
    Prop where
  whole : fullHdrSize ≤ buf.length
  dport : (packetOf buf).thDport = UInt16.ofInt h.config.port
  rst : (packetOf buf).thFlags &&& thRst = 0
  syn : (packetOf buf).thFlags &&& thSyn = 0
  sport : c.conn.port = (packetOf buf).thSport.toNat
  saddr : h.config.unixSocket = true ∨ c.conn.ipAddr = (packetOf buf).saddr
  thSeq : (packetOf buf).thSeq.toNat = (c.conn.theirInitSeqno.toNat + seqno) % 2 ^ 32
  thAck : (packetOf buf).thAck.toNat = (c.conn.initSeqno.toNat + ackno) % 2 ^ 32
  near : seqno < 2 ^ 31 ∧ ackno < 2 ^ 31

variable {seqno ackno : Nat}

/-- Neither count has passed 0. -/
def Unwrapped (c : Connection) (seqno ackno : Nat) : Prop :=
  c.conn.theirInitSeqno.toNat + seqno < 2 ^ 32 ∧ c.conn.initSeqno.toNat + ackno < 2 ^ 32

/-- A segment matches its connection as long as its numbers have not wrapped
around. -/
theorem SegmentOf.matching_iff (seg : h.SegmentOf c buf seqno ackno) :
    h.matching (packetOf buf) c = true ↔ Unwrapped c seqno ackno := by
  have address : (h.config.unixSocket || c.conn.ipAddr == (packetOf buf).saddr) = true := by
    rw [Bool.or_eq_true, beq_iff_eq]
    exact seg.saddr
  have near := seg.near
  rw [matching, address, seg.sport, beq_self_eq_true, Bool.true_and, Bool.true_and,
    Bool.and_eq_true, decide_eq_true_iff, decide_eq_true_iff,
    le_iff_of_ahead (by omega) seg.thSeq, le_iff_of_ahead (by omega) seg.thAck]
  exact Iff.rfl

/-- The relative numbers of a segment that was built for the connection. -/
theorem SegmentOf.relative (seg : h.SegmentOf c buf seqno ackno) :
    (h.segment c buf).seqno.toNat = seqno ∧ (h.segment c buf).ackno.toNat = ackno := by
  have near := seg.near
  exact ⟨toNat_sub_of_ahead (by omega) seg.thSeq, toNat_sub_of_ahead (by omega) seg.thAck⟩

/-- What gets past the checks of the header is looked up. -/
theorem SegmentOf.recvFilter_eq (seg : h.SegmentOf c buf seqno ackno) :
    h.recvFilter connections buf =
      .ok ((connections.find? (h.matching (packetOf buf))).elim (0, none)
        fun c => (buf.length, some c)) := by
  rw [recvFilter, if_neg (Nat.not_lt.mpr seg.whole), if_neg (not_not.mpr seg.dport),
    if_neg (not_not.mpr seg.rst), if_neg (not_not.mpr seg.syn)]
  cases connections.find? (h.matching (packetOf buf)) <;> rfl

/-! ## The first match -/

/-- A search stops at an element that is not in the list before exactly if it
passes the test and nothing before it does. -/
theorem find_eq_iff {α : Type} {p : α → Bool} {before after : List α} {a : α}
    (first : a ∉ before) :
    (before ++ a :: after).find? p = some a ↔ p a = true ∧ ∀ x ∈ before, ¬ p x = true := by
  rw [List.find?_append]
  cases found : before.find? p with
  | none =>
    rw [List.find?_eq_none] at found
    rw [Option.none_or, List.find?_cons]
    split
    · rename_i test
      exact iff_of_true rfl ⟨test, found⟩
    · rename_i test
      refine ⟨fun later => ?_, fun h => absurd h.1 (by simp [test])⟩
      exact ⟨List.find?_some later, found⟩
  | some x =>
    have earlier := List.mem_of_find?_eq_some found
    have test := List.find?_some found
    rw [Option.some_or, Option.some.injEq]
    constructor
    · rintro rfl
      exact absurd earlier first
    · rintro ⟨-, others⟩
      exact absurd test (others x earlier)

/-- **Segments of an established connection.** `recv_filter` returns the
connection of a segment, and `convert_to_ctcp` gives its numbers, exactly if
neither number has wrapped around since the handshake and no more recent
connection matches as well. -/
theorem recv_filter_iff (seg : h.SegmentOf c buf seqno ackno) {before after : List Connection}
    (connected : connections = before ++ c :: after) (first : c ∉ before) :
    (h.recvFilter connections buf = .ok (buf.length, some c) ∧
        (h.segment c buf).seqno.toNat = seqno ∧ (h.segment c buf).ackno.toNat = ackno) ↔
      Unwrapped c seqno ackno ∧ ∀ x ∈ before, ¬ h.matching (packetOf buf) x = true := by
  rw [and_iff_left seg.relative, ← seg.matching_iff, ← find_eq_iff first, ← connected,
    seg.recvFilter_eq]
  cases connections.find? (h.matching (packetOf buf)) with
  | none => simp
  | some x => simp

/-! ## At the wrap -/

/-- A connection with a peer whose initial sequence number is given. -/
def connectionTo (theirInitSeqno : UInt32) : Connection :=
  ⟨0, ⟨0, 1, 7, theirInitSeqno⟩, .fresh (.plain .little), false, false⟩

/-- The first byte of its stream, with an absolute sequence number. -/
def firstByte (thSeq : UInt32) : List UInt8 :=
  [0x45, 0, 0, 41] ++ List.replicate 16 0 ++ [0, 1, 0, 80] ++ be32 thSeq ++
    [0, 0, 0, 8, 0x50, 0x10, 5, 0xa0, 0, 0, 0, 0, 97]

theorem segmentOf_firstByte :
    (plain true).SegmentOf (connectionTo 41) (firstByte 42) 1 1 :=
  ⟨by decide, by decide, by decide, by decide, by decide, by decide, by decide, by decide,
    by decide⟩

theorem recv_filter_iff_first :
    ((plain true).recvFilter [connectionTo 41] (firstByte 42) =
          .ok ((firstByte 42).length, some (connectionTo 41)) ∧
        ((plain true).segment (connectionTo 41) (firstByte 42)).seqno.toNat = 1 ∧
        ((plain true).segment (connectionTo 41) (firstByte 42)).ackno.toNat = 1) ↔
      Unwrapped (connectionTo 41) 1 1 ∧
        ∀ x ∈ ([] : List Connection),
          ¬ (plain true).matching (packetOf (firstByte 42)) x = true :=
  recv_filter_iff segmentOf_firstByte
    (show [connectionTo 41] = [] ++ connectionTo 41 :: [] from rfl) List.not_mem_nil

/-- The initial sequence number of the peer is the largest, so that its first
byte has the sequence number 0. -/
theorem first_byte_filtered :
    ¬ ∀ (h : Host) (connections : List Connection) (c : Connection) (buf : List UInt8)
      (seqno ackno : Nat), c ∈ connections → h.SegmentOf c buf seqno ackno →
        h.recvFilter connections buf = .ok (buf.length, some c) := by
  intro general
  have first : (plain true).SegmentOf (connectionTo 0xffffffff) (firstByte 0) 1 1 :=
    ⟨by decide, by decide, by decide, by decide, by decide, by decide, by decide, by decide,
      by decide⟩
  have found := general (plain true) [connectionTo 0xffffffff] (connectionTo 0xffffffff)
    (firstByte 0) 1 1 (.head _) first
  have dropped : (plain true).recvFilter [connectionTo 0xffffffff] (firstByte 0) =
      .ok (0, none) := rfl
  rw [dropped] at found
  simp at found

end Host

end NetLabs.Ctcp
