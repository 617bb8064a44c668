/-
NetLabs.Ctcp.SentSegments — what arrives of a segment that a connection sends.

`conn_send` gets segments with one of two flags and at most
`MAX_SEG_DATA_SIZE` bytes (`sent_sendable`). The datagram of such a segment
comes back as the segment itself. The exception is a FIN to which the ACK bit
was added, and `ctcp_receive` does the same with it (`receive_arrived`). What
the header of the datagram tells about the segment is read off its bytes
(`isFin_datagram`, `drop_datagram`).
-/
import NetLabs.Ctcp.MainLoop

namespace NetLabs.Ctcp

open NetLabs.Lib

variable {env : Env}

/-! ## Segments that are sent -/

/-- A segment `ctcp.c` builds. -/
structure CtcpSegment.Sendable (seg : CtcpSegment) : Prop where
  size : seg.data.length ≤ maxSegDataSize
  flags : seg.flags = thAck ∨ seg.flags = thFin

/-- The action builds such a segment, or none. -/
def Event.Sendable : Event → Prop
  | .queued b => b.segment.Sendable
  | .control _ seg => seg.Sendable
  | _ => True

theorem makeSegment_sendable (s : CtcpState) (data : Payload) {flags : Int}
    (either : flags = thAck.toNat ∨ flags = thFin.toNat) :
    (s.makeSegment env data.1 flags).Sendable := by
  refine ⟨data.2, ?_⟩
  rcases either with rfl | rfl
  · exact .inl rfl
  · exact .inr rfl

theorem admitFlush_sendable (env : Env) (s : CtcpState) :
    Adds Event.Sendable s (s.admitPending.flush env).1 := by
  apply admitFlush_relation (Adds Event.Sendable) .refl .trans
  case admits => exact fun _ _ _ => .one rfl trivial
  case transmit => exact fun _ _ _ _ => .one rfl trivial
  case limit => exact fun _ => .silent rfl

theorem sendSegment_sendable (s : CtcpState) (data : Payload) {flags : Int}
    (either : flags = thAck.toNat ∨ flags = thFin.toNat) (reqAck : Bool) :
    Adds Event.Sendable s (s.sendSegment env data.1 flags reqAck) := by
  have built : (s.makeSegment env data.1 flags).Sendable := makeSegment_sendable s data either
  rw [CtcpState.sendSegment]
  split
  · have queued : Adds Event.Sendable s (s.enqueue env data.1 flags) := .one rfl built
    exact queued.trans (admitFlush_sendable env _)
  · exact .one rfl built

theorem sendControl_sendable (s : CtcpState) {flags : Int}
    (either : flags = thAck.toNat ∨ flags = thFin.toNat) :
    Adds Event.Sendable s (s.sendSegment env [] flags false) :=
  sendSegment_sendable s ⟨[], Nat.zero_le _⟩ either false

theorem processAck_sendable (env : Env) (s : CtcpState) (seg : CtcpSegment) :
    Adds Event.Sendable s (s.processAck env seg).1 := by
  apply processAck_relation (Adds Event.Sendable) .refl .trans
  case remove =>
    intro s b rest _
    obtain ⟨_, _, _, _, _, _, _, tuned⟩ := tuned_measure env s b
    rw [tuned]
    exact .one rfl trivial
  case flush => exact admitFlush_sendable env

theorem receive_sendable (env : Env) (s : CtcpState) (seg : CtcpSegment) :
    Adds Event.Sendable s (s.receive env seg) := by
  have part := processAck_sendable env s seg
  apply receive_elim (Adds Event.Sendable s)
  case fin =>
    intro _ _
    have closed : Adds Event.Sendable s { s with connectionState := 1 } := .silent rfl
    exact closed.trans ((sendControl_sendable _ (.inl rfl)).trans (.one rfl trivial))
  case closed => exact fun _ => .silent rfl
  case early => exact fun _ _ _ => part
  case late =>
    intro _ _ _
    have stamped : Adds Event.Sendable (s.processAck env seg).1
        ((s.processAck env seg).1.recordSeqno seg) := .silent rfl
    refine part.trans ?_
    rw [CtcpState.processData]
    split
    · exact stamped.trans ((sendControl_sendable _ (.inl rfl)).trans (.one rfl trivial))
    · exact stamped

/-- Whatever a call builds can be sent. -/
theorem call_sendable {s t : CtcpState} {c : Call} (h : CallStep env s c t) :
    Adds Event.Sendable s t := by
  refine call_relation (Adds Event.Sendable) .refl .trans (fun s op made => ?_)
    (fun _ => .silent rfl) h
  cases op with
  | send data flags => exact sendSegment_sendable s data (.inl made) true
  | control flags => exact sendControl_sendable s (made.imp_right And.right)
  | receive seg => exact receive_sendable env s seg
  | timer =>
    have tuned : Adds Event.Sendable s (s.timerBbr env) := .silent (tuned_timerBbr s).trace
    refine tuned.trans ?_
    apply retransmitLoop_relation (Adds Event.Sendable) .refl .trans
    case resend => exact fun _ _ _ _ => .one rfl trivial
    case destroy => exact fun _ => .silent rfl
    case tick => exact fun _ => .silent rfl

/-- What is sent was built. -/
theorem sent_sendable {s : CtcpState} (inv : SentInv env s) (built : ∀ e ∈ s.trace, e.Sendable)
    {x : Nat × CtcpSegment} (sent : x ∈ s.sentSegments) : x.2.Sendable := by
  obtain ⟨e, he, sent⟩ := List.mem_filterMap.mp sent
  have queued {b : Buf} (hb : e.sentBuf? = some b) : b.segment.Sendable := by
    obtain ⟨q, hq, -, same⟩ := inv.contents b (List.mem_filterMap.mpr ⟨e, he, hb⟩)
    obtain ⟨e', he', first⟩ := List.mem_filterMap.mp hq
    cases e' with
    | queued q' =>
      obtain rfl := Option.some_inj.mp first
      exact same ▸ built _ he'
    | _ => cases first
  cases e with
  | transmitted b =>
    obtain rfl := Option.some_inj.mp sent
    exact queued rfl
  | retransmitted b =>
    obtain rfl := Option.some_inj.mp sent
    exact queued rfl
  | control position seg =>
    obtain rfl := Option.some_inj.mp sent
    exact built _ he
  | _ => cases sent

/-! ## On the wire -/

/-- What a receiver reads in a packet of two headers and data. -/
theorem packetOf_parts (e : Endian) (ip : Iphdr) (tcp : Tcphdr) (data : List UInt8) :
    packetOf (ip.bytes e ++ tcp.bytes e ++ data) =
      { saddr := ip.saddr
        thSport := tcp.thSport
        thDport := tcp.thDport
        thSeq := tcp.thSeq
        thAck := tcp.thAck
        thFlags := tcp.thFlags
        window := tcp.thWin } := by
  have saddr : slice (ip.bytes e ++ tcp.bytes e ++ data) 12 4 = be32 ip.saddr := by
    cases e <;> rfl
  have sport : slice (ip.bytes e ++ tcp.bytes e ++ data) 20 2 = be16 tcp.thSport := by
    cases e <;> rfl
  have dport : slice (ip.bytes e ++ tcp.bytes e ++ data) 22 2 = be16 tcp.thDport := by
    cases e <;> rfl
  simp only [packetOf, ipHdrSize, Nat.reduceAdd, saddr, sport, dport, slice_thSeq, slice_thAck,
    slice_thFlags, slice_thWin, ofBe32_be32, ofBe16_be16, List.headD_cons]

/-- The packet carries a FIN. -/
def Packet.IsFin (packet : Packet) : Prop := packet.thFlags &&& thFin.toUInt8 ≠ 0

instance (packet : Packet) : Decidable packet.IsFin := inferInstanceAs (Decidable (_ ≠ _))

section Datagram

variable {e : Endian} {config : Settings} {src dst : Conn} {seg : CtcpSegment}

/-- The flags of the TCP header. -/
theorem isFin_datagram (len : seg.len.toNat = segmentHdrSize + seg.data.length)
    (sendable : seg.Sendable) :
    (packetOf (convertToDatagram e config dst seg seg.len.toNat)).IsFin ↔ seg.hasFlag thFin := by
  rw [len, convertToDatagram_eq sendable.size, packetOf_parts, Packet.IsFin]
  show (if config.forcesAck then seg.flags.toUInt8 ||| thAck.toUInt8 else seg.flags.toUInt8) &&&
    thFin.toUInt8 ≠ 0 ↔ seg.flags &&& thFin = thFin
  rcases sendable.flags with flags | flags <;> rw [flags] <;> cases config.forcesAck <;> decide

/-- The data stands behind the two headers. -/
theorem drop_datagram (len : seg.len.toNat = segmentHdrSize + seg.data.length)
    (sendable : seg.Sendable) :
    (convertToDatagram e config dst seg seg.len.toNat).drop fullHdrSize = seg.data := by
  rw [len, convertToDatagram_eq sendable.size]
  exact List.drop_left' (by simp [fullHdrSize])

/-- The segment comes back, or it is a FIN with the ACK bit added. -/
theorem arrived (len : seg.len.toNat = segmentHdrSize + seg.data.length) (sendable : seg.Sendable)
    (mirror : src.theirInitSeqno = dst.initSeqno ∧ src.initSeqno = dst.theirInitSeqno) :
    let seg' := convertToCtcp e src (convertToDatagram e config dst seg seg.len.toNat)
    seg' = seg ∨ seg'.hasFlag thFin ∧ seg.hasFlag thFin := by
  intro seg'
  have small : seg.flags < 256 := by
    rcases sendable.flags with flags | flags <;> rw [flags] <;> decide
  have eq : seg' = _ := convert_eq len sendable.size small mirror
  have same (kept : (if config.forcesAck then seg.flags ||| thAck else seg.flags) = seg.flags) :
      seg' = seg := by
    rw [eq, kept, UInt16.sub_self, UInt16.zero_add]
  rcases sendable.flags with flags | flags
  · refine .inl (same ?_)
    rw [flags]
    cases config.forcesAck <;> rfl
  · cases forced : config.forcesAck with
    | false => exact .inl (same (by rw [forced]; rfl))
    | true =>
      have fin : seg'.flags = thFin ||| thAck := by
        rw [eq, forced, flags]
        rfl
      refine .inr ⟨?_, ?_⟩
      · rw [CtcpSegment.hasFlag, fin]
        decide
      · rw [CtcpSegment.hasFlag, flags]
        decide

/-- `ctcp_receive` does the same with what has arrived as with what was sent. -/
theorem receive_arrived {s : CtcpState} {seg' : CtcpSegment}
    (state : s.connectionState = 0 ∨ s.connectionState = 1)
    (same : seg' = seg ∨ seg'.hasFlag thFin ∧ seg.hasFlag thFin) :
    s.receive env seg' = s.receive env seg := by
  rcases same with rfl | ⟨fin', fin⟩
  · rfl
  · rcases state with opened | closed
    · rw [receive_fin env fin' opened, receive_fin env fin opened]
    · rw [receive_closed env closed, receive_closed env closed]

end Datagram

end NetLabs.Ctcp
