/-
NetLabs.Ctcp.Receiver — the receiving half of a connection.

`ctcp_receive` decides with three fields, and it writes what it decided to
`conn_output`. The sending half never touches any of them (`SameReceiver`),
so the whole of `ctcp_receive` after its ACK part comes down to one test: a
segment below the watermark `second_most_recent_acknowledgement` is a
duplicate, and any other is accepted (`receive_spec`).
-/
import NetLabs.Ctcp.Steps

namespace NetLabs.Ctcp

open NetLabs.Lib Relation

variable {env : Env}

/-! ## What the sending half leaves alone -/

/-- The two states agree on the receiving half. -/
structure SameReceiver (s t : CtcpState) : Prop where
  delivered : t.delivered = s.delivered
  watermark : t.secondMostRecentAcknowledgement = s.secondMostRecentAcknowledgement
  received : t.mostRecentReceivedAcknowledgement = s.mostRecentReceivedAcknowledgement
  connectionState : t.connectionState = s.connectionState

theorem SameReceiver.refl (s : CtcpState) : SameReceiver s s := ⟨rfl, rfl, rfl, rfl⟩

theorem SameReceiver.trans {s t u : CtcpState} (h : SameReceiver s t) (h' : SameReceiver t u) :
    SameReceiver s u :=
  ⟨h'.delivered.trans h.delivered, h'.watermark.trans h.watermark,
    h'.received.trans h.received, h'.connectionState.trans h.connectionState⟩

/-- Only `conn_output` delivers. -/
@[simp] theorem delivered_log (s : CtcpState) (e : Event) :
    (s.log e).delivered = s.delivered ++ e.outputData := by
  simp [CtcpState.delivered, CtcpState.log]

theorem micro_sameReceiver {s t : CtcpState} (h : Micro env .sending s t) : SameReceiver s t := by
  cases h with
  | tune tuned =>
    obtain ⟨_, _, _, _, _, _, _, rfl⟩ := tuned
    exact ⟨rfl, rfl, rfl, rfl⟩
  | limit | destroy => exact ⟨rfl, rfl, rfl, rfl⟩
  | control | admitted | transmit | remove | retransmit =>
    refine ⟨(delivered_log _ _).trans ?_, rfl, rfl, rfl⟩
    exact List.append_nil _

theorem sends_sameReceiver {s t : CtcpState} (h : Sends env s t) : SameReceiver s t :=
  chain_invariant (SameReceiver s) (fun ht hstep => ht.trans (micro_sameReceiver hstep)) h (.refl s)

theorem enqueue_sameReceiver (s : CtcpState) (data : List UInt8) (flags : Int) :
    SameReceiver s (s.enqueue env data flags) :=
  ⟨(delivered_log _ _).trans (List.append_nil _), rfl, rfl, rfl⟩

/-- The call is one of `ctcp_receive`. -/
def Op.receives : Op → Bool
  | .receive _ => true
  | _ => false

/-- A call is one of `ctcp_receive` or leaves the receiving half alone. -/
theorem apply_sameReceiver (env : Env) (s : CtcpState) {op : Op} (h : op.receives = false) :
    SameReceiver s (s.apply env op) := by
  cases op with
  | send data flags =>
    exact (enqueue_sameReceiver s data.1 flags).trans
      (sends_sameReceiver (sendSegment_sends s data.1 flags))
  | control flags => exact micro_sameReceiver (.control s flags)
  | receive seg => cases h
  | timer => exact sends_sameReceiver (timer_sends s)

/-! ## The data of a segment -/

/-- No byte but NUL follows a NUL: `strncpy` copies all of the data. -/
def NulTail (data : List UInt8) : Prop := ∀ x ∈ data.dropWhile (· ≠ 0), x = 0

instance (data : List UInt8) : Decidable (NulTail data) :=
  inferInstanceAs (Decidable (∀ x ∈ data.dropWhile _, _))

theorem length_strncpy (src : List UInt8) : (CtcpState.strncpy src).length = src.length := by
  have h := (List.takeWhile_prefix (l := src) (p := (· ≠ (0 : UInt8)))).length_le
  simp only [CtcpState.strncpy, List.length_append, List.length_replicate]
  omega

/-- `strncpy` copies the data exactly if nothing but NULs follows a NUL. -/
theorem strncpy_eq_iff (src : List UInt8) : CtcpState.strncpy src = src ↔ NulTail src := by
  have hsplit : src.takeWhile (· ≠ 0) ++ src.dropWhile (· ≠ 0) = src :=
    List.takeWhile_append_dropWhile
  have hlen : src.length - (src.takeWhile (· ≠ 0)).length = (src.dropWhile (· ≠ 0)).length := by
    have := congrArg List.length hsplit
    rw [List.length_append] at this
    omega
  rw [CtcpState.strncpy, hlen, NulTail]
  constructor
  · intro h
    have htail := List.append_cancel_left (h.trans hsplit.symm)
    intro x hx
    rw [← htail] at hx
    exact List.eq_of_mem_replicate hx
  · intro h
    rw [← List.eq_replicate_of_mem h]
    exact hsplit

/-- A segment with a true length field is read to its end and not beyond. -/
theorem dataBytes_eq {seg : CtcpSegment} (len : seg.len.toNat = segmentHdrSize + seg.data.length) :
    CtcpState.dataBytes env seg (CtcpState.dataLen seg).toNat = seg.data := by
  have hlen : (CtcpState.dataLen seg).toNat = seg.data.length := by
    rw [CtcpState.dataLen, len]
    omega
  rw [CtcpState.dataBytes, hlen]
  apply List.ext_getElem
  · simp
  · intro i h1 h2
    simp [List.getD_eq_getElem?_getD, List.getElem?_eq_getElem h2]

/-! ## `ctcp_receive` after its ACK part -/

/-- What a segment that is not a duplicate gives to `conn_output`. -/
def CtcpState.acceptedData (s : CtcpState) (seg : CtcpSegment) : List UInt8 :=
  if s.isDuplicate seg then [] else strncpy seg.data

theorem SameReceiver.isDuplicate_iff {s t : CtcpState} (h : SameReceiver s t)
    (seg : CtcpSegment) : t.isDuplicate seg ↔ s.isDuplicate seg := by
  rw [CtcpState.isDuplicate, CtcpState.isDuplicate, h.watermark]

/-- The data part: the acknowledgement number follows every segment, the
watermark and the output only those that are not duplicates. -/
theorem processData_spec (env : Env) (s : CtcpState) {seg : CtcpSegment}
    (len : seg.len.toNat = segmentHdrSize + seg.data.length) :
    (s.processData env seg).delivered = s.delivered ++ s.acceptedData seg ∧
    (s.processData env seg).secondMostRecentAcknowledgement =
      (if s.isDuplicate seg then s.secondMostRecentAcknowledgement
        else seg.seqno + UInt32.ofNat seg.data.length) ∧
    (s.processData env seg).mostRecentReceivedAcknowledgement =
      seg.seqno + UInt32.ofNat seg.data.length ∧
    (s.processData env seg).connectionState = s.connectionState := by
  have hlen : CtcpState.dataLen seg = seg.data.length := by
    rw [CtcpState.dataLen, len]
    omega
  have hack : seg.seqno + UInt32.ofInt (CtcpState.dataLen seg) =
      seg.seqno + UInt32.ofNat seg.data.length := by
    rw [hlen, ofInt_ofNat]
  rw [CtcpState.processData]
  split
  · rename_i h
    refine ⟨?_, ?_, hack, rfl⟩
    · rw [delivered_log, CtcpState.acceptedData, if_neg h.2, Event.outputData,
        dataBytes_eq len]
      exact congrArg (· ++ _) (micro_sameReceiver (.control (s.recordSeqno seg) _)).delivered
    · rw [← hack]
      rfl
  · rename_i h
    refine ⟨?_, ?_, hack, rfl⟩
    · have none : s.acceptedData seg = [] := by
        rw [CtcpState.acceptedData]
        split
        · rfl
        · rename_i hdup
          have hnil : seg.data.length = 0 := by
            by_contra hne
            exact h ⟨by omega, hdup⟩
          rw [List.length_eq_zero_iff.mp hnil]
          rfl
      rw [none, List.append_nil]
      rfl
    · rw [← hack]
      rfl

/-- `ctcp_receive` on an open connection, for a segment without FIN: if the
ACK part returns, the receiving half is as it was. Otherwise the data part
follows, on the receiving half as it was. -/
theorem receive_spec (env : Env) (s : CtcpState) {seg : CtcpSegment}
    (opened : s.connectionState = 0)
    (nofin : ¬ seg.hasFlag thFin) (len : seg.len.toNat = segmentHdrSize + seg.data.length) :
    (s.receive env seg).connectionState = 0 ∧
    ((s.processAck env seg).2 = true → SameReceiver s (s.receive env seg)) ∧
    ((s.processAck env seg).2 = false →
      (s.receive env seg).delivered = s.delivered ++ s.acceptedData seg ∧
      (s.receive env seg).secondMostRecentAcknowledgement =
        (if s.isDuplicate seg then s.secondMostRecentAcknowledgement
          else seg.seqno + UInt32.ofNat seg.data.length) ∧
      (s.receive env seg).mostRecentReceivedAcknowledgement =
        seg.seqno + UInt32.ofNat seg.data.length) := by
  have same := sends_sameReceiver (processAck_sends env s seg)
  have zero : ¬ (0 : UInt32) = 1 := by decide
  rw [CtcpState.receive, if_neg (fun h => nofin h.1), opened, if_neg zero]
  dsimp only
  split
  · rename_i early
    exact ⟨same.connectionState.trans opened, fun _ => same, by simp [early]⟩
  · rename_i late
    obtain ⟨hd, hw, hr, hc⟩ := processData_spec env (s.processAck env seg).1 len
    refine ⟨hc.trans (same.connectionState.trans opened), fun h => absurd h late, fun _ => ?_⟩
    have dup := same.isDuplicate_iff seg
    refine ⟨?_, ?_, hr⟩
    · rw [hd, same.delivered]
      simp only [CtcpState.acceptedData, dup]
    · rw [hw, same.watermark]
      simp only [dup]

end NetLabs.Ctcp
