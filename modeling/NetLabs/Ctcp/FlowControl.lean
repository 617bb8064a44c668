/-
NetLabs.Ctcp.FlowControl — what is in flight, and the window the peer
advertised.

`ctcp_receive` never reads `segment->window`. The admission loop looks at
`send_window`, which is the window of the configuration until the first ACK
and `bbr->cwnd` from then on. It counts headers, it lets a whole segment in
as long as one byte of the window is free, and the counter it compares loses
what the timer retransmits. So more can be in flight than the peer has room
for, even before the first segment arrives (`overshoot_exceeds_window`).

`WithinWindow` puts this as a condition on the window the peer advertised
last, on the call and on the queues, the counter and `send_window` before it.
A run of such calls stays within the window (`flow_control`).
-/
import NetLabs.Ctcp.AckReturns
import NetLabs.Ctcp.Accounting

namespace NetLabs.Ctcp

open NetLabs.Lib

variable {env : Env}

/-! ## Payload in flight -/

/-- The payload of segments. -/
def payloadBytes (bs : List Buf) : Nat := (bs.map fun b => b.segment.data.length).sum

@[simp] theorem payloadBytes_nil : payloadBytes [] = 0 := rfl

@[simp] theorem payloadBytes_cons (b : Buf) (bs : List Buf) :
    payloadBytes (b :: bs) = b.segment.data.length + payloadBytes bs := by
  simp [payloadBytes]

@[simp] theorem payloadBytes_append (as bs : List Buf) :
    payloadBytes (as ++ bs) = payloadBytes as + payloadBytes bs := by
  simp [payloadBytes]

/-- The payload of the segments that were sent. -/
def sentBytes (bs : List Buf) : Nat := payloadBytes (bs.filter fun b => b.WasSent)

@[simp] theorem sentBytes_nil : sentBytes [] = 0 := rfl

@[simp] theorem sentBytes_cons (b : Buf) (bs : List Buf) :
    sentBytes (b :: bs) = (if b.WasSent then b.segment.data.length else 0) + sentBytes bs := by
  rw [sentBytes, List.filter_cons]
  split <;> simp_all [sentBytes]

@[simp] theorem sentBytes_append (as bs : List Buf) :
    sentBytes (as ++ bs) = sentBytes as + sentBytes bs := by
  simp [sentBytes]

namespace CtcpState

/-- The payload handed to `conn_send` and not acknowledged. -/
def outstanding (s : CtcpState) : Nat := payloadBytes (s.unacknowledgedSegments.filter s.wasSent)

end CtcpState

/-! ## The condition -/

/-- The length of segments, headers included, which is what the counter adds
up. -/
def lengthBytes (bs : List Buf) : Nat := (bs.map fun b => b.segment.len.toNat).sum

/-- The window lets these segments in, one after the other: in front of each of
them the counter, which has 16 bits, is below the window. -/
def LetsIn (window sliding : UInt16) (bs : List Buf) : Prop :=
  ∀ n < bs.length, (sliding.toNat + lengthBytes (bs.take n)) % 65536 < window.toNat

instance (window sliding : UInt16) (bs : List Buf) : Decidable (LetsIn window sliding bs) :=
  inferInstanceAs (Decidable (∀ n < _, _))

/-- The timer may find the segment due at one of these readings of the clock. -/
def Buf.MayExpire (env : Env) (timeout : Int) (first last : Nat) (b : Buf) : Prop :=
  ∃ k < last, first ≤ k ∧ env.clock k - b.sentAt > timeout

instance (timeout : Int) (first last : Nat) :
    DecidablePred (Buf.MayExpire env timeout first last) :=
  fun b => inferInstanceAs (Decidable (∃ k < last, first ≤ k ∧ env.clock k - b.sentAt > timeout))

/-- The segments that were sent, or that the timer may find due. -/
def flyingOf (env : Env) (timeout : Int) (first last : Nat) (bs : List Buf) : List Buf :=
  bs.filter fun b => b.WasSent ∨ b.MayExpire env timeout first last

namespace CtcpState

/-- `send_window` lets in all of these pending segments, and everything it let
in is in flight. -/
def Drains (s : CtcpState) (pending : List Buf) : Prop :=
  LetsIn s.sendWindow s.slidingWindowSizeBytes pending ∧
    (s.slidingWindowSizeBytes.toNat + lengthBytes pending) % 65536 = s.inflightData.toNat

instance (s : CtcpState) (pending : List Buf) : Decidable (s.Drains pending) :=
  inferInstanceAs (Decidable (_ ∧ _))

/-- However many of these pending segments `send_window` lets in, the last of
them whole, there is room for them next to what is unacknowledged. -/
def HasRoom (window : UInt16) (s : CtcpState) (pending : List Buf) : Prop :=
  ∀ n ≤ pending.length, LetsIn s.sendWindow s.slidingWindowSizeBytes (pending.take n) →
    payloadBytes s.unacknowledgedSegments + payloadBytes (pending.take n) ≤ window.toNat

instance (window : UInt16) (s : CtcpState) (pending : List Buf) :
    Decidable (s.HasRoom window pending) :=
  inferInstanceAs (Decidable (∀ n ≤ _, _))

/-- The segments that are unacknowledged when a segment arrives and that it
does not acknowledge. -/
def leftBy (s : CtcpState) (seg : CtcpSegment) : List Buf :=
  if s.ReachesAck seg ∧ seg.hasFlag thAck then
    s.unacknowledgedSegments.dropWhile (·.ReachedBy seg.ackno)
  else s.unacknowledgedSegments

/-- The segments in flight once the timer was visited, if it finds due what it
may at the readings it makes. -/
def flying (env : Env) (s : CtcpState) : List Buf :=
  flyingOf env s.rtTimeout s.ticks (s.ticks + 4 + 2 * s.unacknowledgedSegments.length)
    s.unacknowledgedSegments

end CtcpState

/-- A connection and the window its peer advertised last: the one of the
handshake, until a segment arrives. -/
structure Flow where
  conn : CtcpState
  advertised : UInt16
  deriving DecidableEq, Repr

/-- The window a call brings. -/
def Op.window? : Op → Option UInt16
  | .receive seg => some seg.window
  | _ => none

/-- The state after a call. -/
def Flow.apply (env : Env) (x : Flow) (op : Op) : Flow :=
  ⟨x.conn.apply env op, op.window?.getD x.advertised⟩

/-- A call on a live connection. -/
def FlowStep (env : Env) (x : Flow) (op : Op) (x' : Flow) : Prop :=
  x.conn.alive = true ∧ x' = x.apply env op

/-- A connection just set up. -/
def Flow.start (env : Env) (block : Bbr) (config : CtcpConfig) : Flow :=
  ⟨ctcpInit env block config, config.sendWindow⟩

/-- Where the call comes to the transmission loop, the window the peer
advertised last has room for everything unacknowledged and what `send_window`
lets in. A segment that arrives advertises no less than it leaves in flight,
and where it makes `cwnd` the send window and lets in pending segments, there
is room for all of them. What the timer may find due fits, sent or not. -/
def WithinWindow (env : Env) (x : Flow) : Op → Prop
  | .send data flags =>
      let pending := x.conn.outputPendingSegments ++ [x.conn.makeBuf env data.1 flags]
      x.conn.IsFull env ∨ x.conn.Drains pending ∨ x.conn.HasRoom x.advertised pending
  | .control _ => True
  | .receive seg => sentBytes (x.conn.leftBy seg) ≤ seg.window.toNat ∧
      (x.conn.ReachesAck seg → ¬ x.conn.AvoidsReturns seg →
        payloadBytes x.conn.unacknowledgedSegments.tail +
          payloadBytes x.conn.outputPendingSegments ≤ seg.window.toNat)
  | .timer => payloadBytes (x.conn.flying env) ≤ x.advertised.toNat

instance (env : Env) (x : Flow) : (op : Op) → Decidable (WithinWindow env x op)
  | .send _ _ => inferInstanceAs (Decidable (_ ∨ _ ∨ _))
  | .control _ => inferInstanceAs (Decidable True)
  | .receive _ => inferInstanceAs (Decidable (_ ∧ (_ → _ → _)))
  | .timer => inferInstanceAs (Decidable (_ ≤ _))

/-! ## Pending segments were not sent -/

/-- No pending segment has been sent. -/
def PendingUnsent (s : CtcpState) : Prop := ∀ b ∈ s.outputPendingSegments, ¬ b.WasSent

theorem pendingUnsent_init (block : Bbr) (config : CtcpConfig) :
    PendingUnsent (ctcpInit env block config) := nofun

theorem pendingUnsent_enqueue (s : CtcpState) (data : List UInt8) (flags : Int)
    (h : PendingUnsent s) : PendingUnsent (s.enqueue env data flags) := by
  intro b hb
  rcases List.mem_append.mp hb with hb | hb
  · exact h b hb
  · obtain rfl := List.mem_singleton.mp hb
    simp [Buf.WasSent, CtcpState.makeBuf]

theorem pendingUnsent_micro {half : Half} {s t : CtcpState} (h : PendingUnsent s)
    (hstep : Micro env half s t) : PendingUnsent t := by
  cases hstep with
  | tune tuned =>
    obtain ⟨_, _, _, _, _, _, _, rfl⟩ := tuned
    exact h
  | admitted pending room =>
    exact fun b hb => h b (pending ▸ List.mem_cons_of_mem _ hb)
  | control | limit | transmit | remove | destroy | retransmit | recordSeqno | output | fin =>
    exact h

/-! ## What the loops leave in flight -/

/-- Admission sends nothing. -/
theorem admitLoop_sentBytes (bs : List Buf) (s : CtcpState) (unsent : ∀ b ∈ bs, ¬ b.WasSent) :
    sentBytes (CtcpState.admitLoop bs s).unacknowledgedSegments =
      sentBytes s.unacknowledgedSegments := by
  induction bs generalizing s with
  | nil => rfl
  | cons b rest ih =>
    rw [CtcpState.admitLoop]
    split
    · rw [ih _ fun c hc => unsent c (List.mem_cons_of_mem b hc)]
      simp [CtcpState.admitOne, CtcpState.log, unsent b List.mem_cons_self]
    · rfl

/-- The transmission loop sends everything. -/
theorem transmitLoop_sentBytes (visited rest : List Buf) (s : CtcpState)
    (h : s.unacknowledgedSegments = visited ++ rest) :
    sentBytes (CtcpState.transmitLoop env visited rest s).unacknowledgedSegments =
      sentBytes visited + payloadBytes rest := by
  induction rest generalizing visited s with
  | nil => rw [CtcpState.transmitLoop, h, List.append_nil, payloadBytes_nil, Nat.add_zero]
  | cons b rest ih =>
    rw [CtcpState.transmitLoop]
    split
    · rw [ih (visited ++ [s.markSent env b]) _ (by simp [CtcpState.transmitOne, CtcpState.log])]
      simp [Buf.WasSent, CtcpState.markSent, Nat.add_assoc]
    · rename_i sent
      rw [ih (visited ++ [b]) s (by simp [h])]
      simp [show b.WasSent from .inl sent, Nat.add_assoc]

/-- After the admission loop everything unacknowledged is sent, or nothing
more. -/
theorem flush_sentBytes (env : Env) (s : CtcpState) :
    sentBytes (s.flush env).1.unacknowledgedSegments =
      if s.IsFull env ∨ s.IsDrained then sentBytes s.unacknowledgedSegments
      else payloadBytes s.unacknowledgedSegments := by
  rw [flush_eq]
  by_cases full : s.IsFull env
  · rw [if_pos full, if_pos (.inl full)]
  · by_cases drained : s.IsDrained
    · rw [if_neg full, if_pos drained, if_pos (.inr drained)]
    · rw [if_neg full, if_neg drained, if_neg (not_or.mpr ⟨full, drained⟩),
        transmitLoop_sentBytes [] _ s rfl, sentBytes_nil, Nat.zero_add]

/-! ## What a window lets in -/

theorem payloadBytes_le {as bs : List Buf} (h : as.Sublist bs) :
    payloadBytes as ≤ payloadBytes bs :=
  (h.map _).sum_le_sum fun _ _ => Nat.zero_le _

theorem sentBytes_le_payloadBytes (bs : List Buf) : sentBytes bs ≤ payloadBytes bs :=
  payloadBytes_le List.filter_sublist

@[simp] theorem lengthBytes_nil : lengthBytes [] = 0 := rfl

@[simp] theorem lengthBytes_cons (b : Buf) (bs : List Buf) :
    lengthBytes (b :: bs) = b.segment.len.toNat + lengthBytes bs := by
  simp [lengthBytes]

theorem letsIn_nil (window sliding : UInt16) : LetsIn window sliding [] :=
  fun _ h => absurd h (Nat.not_lt_zero _)

/-- The first segment takes its length off the room of the others. -/
theorem letsIn_cons (window sliding : UInt16) (b : Buf) (rest : List Buf) :
    LetsIn window sliding (b :: rest) ↔
      sliding < window ∧ LetsIn window (sliding + b.segment.len) rest := by
  have word := sliding.toNat_lt
  have moved (n : Nat) : (sliding.toNat + lengthBytes ((b :: rest).take (n + 1))) % 65536 =
      ((sliding + b.segment.len).toNat + lengthBytes (rest.take n)) % 65536 := by
    rw [List.take_succ_cons, lengthBytes_cons, UInt16.toNat_add]
    omega
  constructor
  · intro h
    refine ⟨?_, fun n hn => moved n ▸ h (n + 1) (Nat.succ_lt_succ hn)⟩
    have first := h 0 (Nat.succ_pos _)
    rw [List.take_zero, lengthBytes_nil] at first
    rw [UInt16.lt_iff_toNat_lt]
    omega
  · rintro ⟨room, more⟩ n hn
    cases n with
    | zero =>
      rw [UInt16.lt_iff_toNat_lt] at room
      rw [List.take_zero, lengthBytes_nil]
      omega
    | succ n => exact moved n ▸ more n (Nat.lt_of_succ_lt_succ hn)

/-- The admission loop takes the longest start of the queue that the window
lets in. -/
theorem prefix_admitted_iff (window sliding : UInt16) {as bs : List Buf} (start : as <+: bs) :
    as <+: admitted window sliding bs ↔ LetsIn window sliding as := by
  induction bs generalizing sliding as with
  | nil =>
    rw [List.prefix_nil.mp start]
    exact iff_of_true List.nil_prefix (letsIn_nil _ _)
  | cons b rest ih =>
    cases as with
    | nil => exact iff_of_true List.nil_prefix (letsIn_nil _ _)
    | cons a as =>
      obtain ⟨rfl, below⟩ := List.cons_prefix_cons.mp start
      rw [letsIn_cons, admitted]
      by_cases room : sliding < window
      · rw [if_pos room, List.cons_prefix_cons, ih _ below, and_iff_right rfl, and_iff_right room]
      · rw [if_neg room]
        exact iff_of_false (fun h => List.cons_ne_nil _ _ (List.prefix_nil.mp h))
          fun h => room h.1

theorem admitted_isPrefix (window sliding : UInt16) (bs : List Buf) :
    admitted window sliding bs <+: bs := by
  induction bs generalizing sliding with
  | nil => exact List.nil_prefix
  | cons b rest ih =>
    rw [admitted]
    split
    · exact List.cons_prefix_cons.mpr ⟨rfl, ih _⟩
    · exact List.nil_prefix

/-- A queue has room exactly if there is room for what the admission loop takes of
it. -/
theorem hasRoom_iff (window : UInt16) (s : CtcpState) (pending : List Buf) :
    s.HasRoom window pending ↔ payloadBytes s.unacknowledgedSegments +
      payloadBytes (admitted s.sendWindow s.slidingWindowSizeBytes pending) ≤ window.toNat := by
  have start := admitted_isPrefix s.sendWindow s.slidingWindowSizeBytes pending
  constructor
  · intro room
    have fits := room _ start.length_le
    rw [← List.prefix_iff_eq_take.mp start] at fits
    exact fits ((prefix_admitted_iff _ _ start).mp (List.prefix_refl _))
  · intro fits n _ letIn
    have part := (prefix_admitted_iff _ _ (List.take_prefix n pending)).mpr letIn
    exact (Nat.add_le_add_left (payloadBytes_le part.sublist) _).trans fits

/-! ## `send_segment` -/

theorem admitPending_isFull (env : Env) (s : CtcpState) :
    s.admitPending.IsFull env ↔ s.IsFull env := by
  have same : s.admitPending.bbr = s.bbr ∧ s.admitPending.inflightData = s.inflightData :=
    admitLoop_relation (fun s t => t.bbr = s.bbr ∧ t.inflightData = s.inflightData)
      (fun _ => ⟨rfl, rfl⟩) (fun first next => ⟨next.1.trans first.1, next.2.trans first.2⟩)
      (fun _ _ _ => ⟨rfl, rfl⟩) _ s
  rw [CtcpState.IsFull, CtcpState.IsFull, CtcpState.bdp, CtcpState.bdp, same.1, same.2]

/-- The admission loop leaves nothing pending that counts exactly if the
pending segments drain. -/
theorem admitLoop_isDrained (bs : List Buf) (s : CtcpState) (h : s.outputPendingSegments = bs) :
    (CtcpState.admitLoop bs s).IsDrained ↔ s.Drains bs := by
  induction bs generalizing s with
  | nil =>
    have word := s.slidingWindowSizeBytes.toNat_lt
    have wide : s.slidingWindowSizeBytes.toUInt32.toNat = s.slidingWindowSizeBytes.toNat := rfl
    have zero : s.slidingWindowSizeBytes.toUInt32 - s.inflightData = 0 ↔
        s.slidingWindowSizeBytes.toUInt32 = s.inflightData := by
      constructor <;> grind
    rw [CtcpState.admitLoop, CtcpState.IsDrained, CtcpState.Drains, and_iff_right h,
      and_iff_right (letsIn_nil _ _), zero, ← UInt32.toNat_inj, wide, lengthBytes_nil]
    omega
  | cons b rest ih =>
    rw [CtcpState.admitLoop, CtcpState.Drains, letsIn_cons, lengthBytes_cons]
    by_cases room : s.slidingWindowSizeBytes < s.sendWindow
    · have sum :
          (s.slidingWindowSizeBytes.toNat + (b.segment.len.toNat + lengthBytes rest)) % 65536 =
            ((s.slidingWindowSizeBytes + b.segment.len).toNat + lengthBytes rest) % 65536 := by
        rw [UInt16.toNat_add]
        omega
      rw [if_pos room, ih _ rfl, and_iff_right room, sum]
      exact Iff.rfl
    · rw [if_neg room]
      refine iff_of_false (fun drained => ?_) fun drained => room drained.1.1
      rw [CtcpState.IsDrained, h] at drained
      exact List.cons_ne_nil _ _ drained.1

theorem sendSegment_sentBytes_iff {x : Flow} {data : Payload} {flags : Int}
    (unsent : PendingUnsent x.conn)
    (within : sentBytes x.conn.unacknowledgedSegments ≤ x.advertised.toNat) :
    sentBytes (x.conn.apply env (.send data flags)).unacknowledgedSegments ≤
        x.advertised.toNat ↔ WithinWindow env x (.send data flags) := by
  have queued : sentBytes (x.conn.enqueue env data.1 flags).admitPending.unacknowledgedSegments =
      sentBytes x.conn.unacknowledgedSegments :=
    admitLoop_sentBytes _ _ (pendingUnsent_enqueue _ _ _ unsent)
  have full : (x.conn.enqueue env data.1 flags).admitPending.IsFull env ↔ x.conn.IsFull env :=
    admitPending_isFull env _
  have drained : (x.conn.enqueue env data.1 flags).admitPending.IsDrained ↔
      x.conn.Drains (x.conn.outputPendingSegments ++ [x.conn.makeBuf env data.1 flags]) :=
    admitLoop_isDrained _ (x.conn.enqueue env data.1 flags) rfl
  have unacknowledged : (x.conn.enqueue env data.1 flags).admitPending.unacknowledgedSegments =
      x.conn.unacknowledgedSegments ++ admitted x.conn.sendWindow x.conn.slidingWindowSizeBytes
        (x.conn.outputPendingSegments ++ [x.conn.makeBuf env data.1 flags]) :=
    admitLoop_unacknowledged _ (x.conn.enqueue env data.1 flags)
  rw [WithinWindow, hasRoom_iff, ← or_assoc, ← full, ← drained, CtcpState.apply,
    CtcpState.sendSegment, if_pos rfl, flush_sentBytes, queued, unacknowledged,
    payloadBytes_append]
  split
  · rename_i returns
    exact iff_of_true within (.inl returns)
  · rename_i goesOn
    exact (or_iff_right goesOn).symm

/-! ## `ctcp_receive` -/

/-- The sending half takes segments off the front of the send queue, and adds
none. -/
theorem sends_suffix {s t : CtcpState} (h : Sends env s t) :
    t.queuedSegments <:+ s.queuedSegments := by
  refine chain_invariant (fun t => t.queuedSegments <:+ s.queuedSegments)
    (fun {t u} ht hstep => ?_) h (List.suffix_refl _)
  obtain ⟨-, -, ⟨same, -⟩ | ⟨seg, removed, -⟩⟩ := micro_queue hstep
  · exact same ▸ ht
  · exact (removed ▸ List.suffix_cons seg _).trans ht

theorem payloadBytes_suffix {as bs : List Buf} (h : as.map Buf.segment <:+ bs.map Buf.segment) :
    payloadBytes as ≤ payloadBytes bs := by
  have shorter := (h.sublist.map fun seg => seg.data.length).sum_le_sum fun _ _ => Nat.zero_le _
  rwa [List.map_map, List.map_map] at shorter

/-- An ACK that reaches the front segment leaves no more unacknowledged than
what is queued behind it. -/
theorem processAck_payloadBytes (env : Env) {s : CtcpState} {seg : CtcpSegment} {b : Buf}
    {rest : List Buf} (reaches : s.ReachesAck seg) (ack : seg.hasFlag thAck)
    (queue : s.unacknowledgedSegments = b :: rest) (reached : b.ReachedBy seg.ackno) :
    payloadBytes (s.processAck env seg).1.unacknowledgedSegments ≤
      payloadBytes rest + payloadBytes s.outputPendingSegments := by
  have removed : (Turn.removed env (s, b)).sendQueue = rest ++ s.outputPendingSegments := by
    rw [CtcpState.sendQueue, Turn.removed_pending, Turn.removed_eq queue]
    rfl
  have turn : Sends env (Turn.removed env (s, b)) (Turn.after env (s, b)) := by
    rw [Turn.after]
    split
    · exact .refl
    · exact (admitPending_sends _).trans (flush_sends env _)
  have loop : Sends env (Turn.after env (s, b)) (s.processAck env seg).1 := by
    rw [(receiveTurns_turn env reaches ack queue reached).2]
    split
    · exact .refl
    · exact ackLoop_sends _ _ _
  have shorter := payloadBytes_suffix (sends_suffix (turn.trans loop))
  rw [removed, payloadBytes_append, CtcpState.sendQueue, payloadBytes_append] at shorter
  omega

/-- A call that does not come to the `return`s of the ACK loop leaves in flight
what the segment does not acknowledge. -/
theorem receive_avoids_sentBytes {s : CtcpState} {seg : CtcpSegment}
    (avoids : s.ReachesAck seg → s.AvoidsReturns seg) :
    sentBytes (s.receive env seg).unacknowledgedSegments = sentBytes (s.leftBy seg) := by
  by_cases reaches : s.ReachesAck seg
  · rw [(receive_queues env reaches).1, CtcpState.leftBy, CtcpState.processAck]
    by_cases ack : seg.hasFlag thAck
    · rw [if_pos ack, if_pos ⟨reaches, ack⟩]
      rcases avoids reaches ack with idle | stop
      · rw [(ackLoop_idle env seg.ackno le_rfl idle).2.2]
      · rw [(ackLoop_stop env _ stop).2]
        cases queue : s.unacknowledgedSegments with
        | nil => rfl
        | cons b rest =>
          have beyond : ¬ b.ReachedBy seg.ackno := stop b (by simp [queue])
          rw [List.dropWhile_cons_of_neg (by simpa using beyond)]
    · rw [if_neg ack, if_neg fun both => ack both.2]
  · rw [CtcpState.leftBy, if_neg fun both => reaches both.1, CtcpState.receive]
    by_cases fin : seg.hasFlag thFin ∧ s.connectionState = 0
    · rw [if_pos fin]
      rfl
    · have closed : s.connectionState = 1 := not_not.mp fun opened => reaches ⟨fin, opened⟩
      rw [if_neg fin, if_pos closed]
      rfl

theorem receive_sentBytes {x : Flow} {seg : CtcpSegment}
    (fits : WithinWindow env x (.receive seg)) :
    sentBytes (x.conn.receive env seg).unacknowledgedSegments ≤ seg.window.toNat := by
  obtain ⟨left, behind⟩ := fits
  by_cases comes : x.conn.ReachesAck seg ∧ ¬ x.conn.AvoidsReturns seg
  · obtain ⟨reaches, comes⟩ := comes
    have room := behind reaches comes
    rw [CtcpState.AvoidsReturns] at comes
    push Not at comes
    obtain ⟨ack, _, b, front, reached⟩ := comes
    obtain ⟨rest, queue⟩ := List.head?_eq_some_iff.mp front
    rw [queue, List.tail_cons] at room
    have acked := (sentBytes_le_payloadBytes _).trans
      ((processAck_payloadBytes env reaches ack queue reached).trans room)
    rwa [(receive_queues env reaches).1]
  · rw [receive_avoids_sentBytes fun reaches => not_not.mp fun h => comes ⟨reaches, h⟩]
    exact left

/-- Where the estimates are not known no less will do: if the segment
acknowledges the front segment only, and 65535 bytes of window let in what is
pending, there are estimates with which the call puts all of it in flight. -/
theorem receive_overruns (ieee : env.float.Ieee) {s : CtcpState} {seg : CtcpSegment} {b : Buf}
    {rest : List Buf} (reaches : s.ReachesAck seg) (ack : seg.hasFlag thAck)
    (queue : s.unacknowledgedSegments = b :: rest) (reached : b.ReachedBy seg.ackno)
    (next : ∀ c ∈ (rest ++ s.outputPendingSegments).head?, ¬ c.ReachedBy seg.ackno)
    (pending : s.outputPendingSegments ≠ [])
    (wide : LetsIn 65535 (s.slidingWindowSizeBytes - b.segment.len) s.outputPendingSegments) :
    ∃ t, s.SameButEstimates t ∧
      sentBytes (t.receive env seg).unacknowledgedSegments =
        payloadBytes rest + payloadBytes s.outputPendingSegments := by
  let t := s.estimating 0 65535
    (b.segment.len.toUInt32 + ((s.refilled b 65535).slidingWindowSizeBytes.toUInt32 + 1))
  have goesOn : ¬ Turn.LeavesAt env (t, b) := goesOn_estimating ieee
  have some : (Turn.removed env (t, b)).outputPendingSegments ≠ [] :=
    (Turn.removed_pending env (t, b)).symm ▸ pending
  have all := (prefix_admitted_iff 65535 _ (List.prefix_refl _)).mpr wide
  have filled : (Turn.filled env (t, b)).unacknowledgedSegments =
      rest ++ s.outputPendingSegments := by
    rw [(filled_estimating s b 65535 env 0 _).unacknowledged, refilled_unacknowledged, queue,
      List.tail_cons, (admitted_isPrefix _ _ _).eq_of_length_le all.length_le]
  have sent : sentBytes (Turn.after env (t, b)).unacknowledgedSegments =
      payloadBytes rest + payloadBytes s.outputPendingSegments := by
    rw [Turn.after, if_neg some, flush_sentBytes, if_neg fun returns => goesOn ⟨some, returns⟩,
      filled, payloadBytes_append]
  have stop : ∀ c ∈ (Turn.after env (t, b)).unacknowledgedSegments.head?,
      ¬ c.segment.seqno < seg.ackno := by
    have same : (Turn.after env (t, b)).unacknowledgedSegments.map Buf.segment =
        (Turn.filled env (t, b)).unacknowledgedSegments.map Buf.segment :=
      Turn.after_pending env (t, b) pending
    rw [filled] at same
    intro c hc
    have front := congrArg List.head? same
    rw [List.head?_map, List.head?_map, Option.mem_def.mp hc] at front
    obtain ⟨d, hd, eq⟩ := Option.map_eq_some_iff.mp front.symm
    exact eq ▸ next d hd
  refine ⟨t, sameButEstimates_estimating s 0 65535 _, ?_⟩
  have acked : t.processAck env seg = (Turn.after env (t, b), false) := by
    rw [(receiveTurns_turn env (s := t) reaches ack queue reached).2, if_neg goesOn]
    exact (ackLoop_stop env _ stop).2
  rw [(receive_queues env (s := t) reaches).1, acked, sent]

/-! ## The timer -/

theorem payloadBytes_flyingOf (timeout : Int) (first last : Nat) (b : Buf) (bs : List Buf) :
    payloadBytes (flyingOf env timeout first last (b :: bs)) =
      (if b.WasSent ∨ b.MayExpire env timeout first last then b.segment.data.length else 0) +
        payloadBytes (flyingOf env timeout first last bs) := by
  rw [flyingOf, flyingOf, List.filter_cons]
  split <;> simp_all

theorem sentBytes_le_flying (env : Env) (timeout : Int) (first last : Nat) (bs : List Buf) :
    sentBytes bs ≤ payloadBytes (flyingOf env timeout first last bs) := by
  refine payloadBytes_le (List.monotone_filter_right bs fun b sent => ?_)
  exact decide_eq_true (.inl (of_decide_eq_true sent))

/-- What the retransmission loop leaves in flight was so before, or may be
found due. -/
theorem retransmitLoop_sentBytes (env : Env) (first last : Nat) (visited rest : List Buf)
    (s : CtcpState) (queue : s.unacknowledgedSegments = visited ++ rest) (early : first ≤ s.ticks)
    (late : s.ticks + 2 * rest.length ≤ last) :
    sentBytes (CtcpState.retransmitLoop env visited rest s).unacknowledgedSegments ≤
      sentBytes visited + payloadBytes (flyingOf env s.rtTimeout first last rest) := by
  induction rest generalizing visited s with
  | nil =>
    rw [CtcpState.retransmitLoop, queue, List.append_nil]
    exact Nat.le_add_right _ _
  | cons b rest ih =>
    have others := sentBytes_le_flying env s.rtTimeout first last rest
    have ticks : (s.retransmitOne env visited b rest).ticks = s.ticks + 2 := rfl
    rw [List.length_cons] at late
    rw [CtcpState.retransmitLoop, payloadBytes_flyingOf]
    by_cases due : s.isDue env b
    · have flies : b.WasSent ∨ b.MayExpire env s.rtTimeout first last :=
        .inr ⟨s.ticks, by omega, early, due.1⟩
      have resent : sentBytes [s.markResent env b] ≤ b.segment.data.length :=
        sentBytes_le_payloadBytes [s.markResent env b]
      rw [if_pos due, if_pos flies]
      split
      · have queue' : (s.retransmitOne env visited b rest).destroy.unacknowledgedSegments =
          visited ++ ([s.markResent env b] ++ rest) := rfl
        rw [queue', sentBytes_append, sentBytes_append]
        omega
      · have more := ih (visited ++ [s.markResent env b]) (s.retransmitOne env visited b rest)
          (by simp [CtcpState.retransmitOne, CtcpState.log]) (by omega) (by omega)
        have timeout : (s.retransmitOne env visited b rest).rtTimeout = s.rtTimeout := rfl
        rw [timeout, sentBytes_append] at more
        omega
    · have sent : sentBytes [b] ≤
          if b.WasSent ∨ b.MayExpire env s.rtTimeout first last then b.segment.data.length
          else 0 := by
        rw [sentBytes_cons, sentBytes_nil, Nat.add_zero]
        split
        · rename_i was
          rw [if_pos (.inl was)]
        · exact Nat.zero_le _
      rw [if_neg due]
      split
      · have queue' : ({ s with ticks := s.ticks + 1 } : CtcpState).destroy.unacknowledgedSegments =
          visited ++ ([b] ++ rest) := queue
        rw [queue', sentBytes_append, sentBytes_append]
        omega
      · have more := ih (visited ++ [b]) { s with ticks := s.ticks + 1 } (by simp [queue])
          (early.trans (Nat.le_succ _)) (by dsimp only; omega)
        rw [sentBytes_append] at more
        dsimp only at more
        omega

theorem timer_sentBytes (env : Env) (s : CtcpState) :
    sentBytes (s.timer env).unacknowledgedSegments ≤ payloadBytes (s.flying env) := by
  obtain ⟨later, early⟩ := timerBbr_ticks env s
  have tuned : Tuned s (s.timerBbr env) := tuned_timerBbr s
  have queue := tuned.unacknowledgedSegments
  have visit := retransmitLoop_sentBytes env s.ticks
    (s.ticks + 4 + 2 * s.unacknowledgedSegments.length) [] s.unacknowledgedSegments
    (s.timerBbr env) queue later (by omega)
  rw [tuned.rtTimeout, sentBytes_nil, Nat.zero_add] at visit
  rwa [CtcpState.timer, queue]

/-! ## Flow control -/

theorem SentInv.outstanding_eq {s : CtcpState} (h : SentInv env s) :
    s.outstanding = sentBytes s.unacknowledgedSegments := by
  rw [CtcpState.outstanding, sentBytes]
  refine congrArg payloadBytes (List.filter_congr fun b hb => ?_)
  rw [Bool.eq_iff_iff, h.wasSent_iff (List.mem_append_left _ hb), decide_eq_true_iff]

/-- What a connection knows in every state. -/
structure FlowInv (env : Env) (x : Flow) : Prop where
  sent : SentInv env x.conn
  unsent : PendingUnsent x.conn

theorem flowInv_step {x x' : Flow} {op : Op} (h : FlowInv env x) (hstep : FlowStep env x op x') :
    FlowInv env x' := by
  obtain ⟨-, rfl⟩ := hstep
  exact ⟨apply_invariant (SentInv env) sentInv_enqueue sentInv_micro _ op h.sent,
    apply_invariant PendingUnsent (fun s data flags => pendingUnsent_enqueue s data.1 flags)
      pendingUnsent_micro _ op h.unsent⟩

theorem within_step {x x' : Flow} {op : Op} (h : FlowInv env x)
    (within : sentBytes x.conn.unacknowledgedSegments ≤ x.advertised.toNat)
    (hstep : FlowStep env x op x') (fits : WithinWindow env x op) :
    sentBytes x'.conn.unacknowledgedSegments ≤ x'.advertised.toNat := by
  obtain ⟨-, rfl⟩ := hstep
  cases op with
  | send => exact (sendSegment_sentBytes_iff h.unsent within).mpr fits
  | control => exact within
  | receive seg => exact receive_sentBytes fits
  | timer => exact (timer_sentBytes env x.conn).trans fits

/-- **Flow control.** In every run whose calls all stay `WithinWindow`, the
payload that was sent and is not acknowledged is at most the window the peer
advertised last. For `send_segment` the condition is exact, and for an arriving
segment that lets in nothing: the next such call leaves it so exactly if it
stays within the window. -/
theorem flow_control {block : Bbr} {config : CtcpConfig} {ops : List Op} {x : Flow}
    (h : Run (Guarded (FlowStep env) (WithinWindow env)) (.start env block config) ops x) :
    x.conn.outstanding ≤ x.advertised.toNat ∧
    (∀ data flags x', FlowStep env x (.send data flags) x' →
      (x'.conn.outstanding ≤ x'.advertised.toNat ↔ WithinWindow env x (.send data flags))) ∧
    ∀ seg x', FlowStep env x (.receive seg) x' →
      (x.conn.ReachesAck seg → x.conn.AvoidsReturns seg) →
        (x'.conn.outstanding ≤ x'.advertised.toNat ↔ WithinWindow env x (.receive seg)) := by
  have inv : FlowInv env x ∧ sentBytes x.conn.unacknowledgedSegments ≤ x.advertised.toNat :=
    Run.invariant (fun x => FlowInv env x ∧
        sentBytes x.conn.unacknowledgedSegments ≤ x.advertised.toNat)
      ⟨⟨sentInv_init block config, pendingUnsent_init block config⟩, Nat.zero_le _⟩
      (fun ht hstep => ⟨flowInv_step ht.1 hstep.1, within_step ht.1 ht.2 hstep.1 hstep.2⟩) h
  obtain ⟨flow, within⟩ := inv
  refine ⟨flow.sent.outstanding_eq ▸ within, fun data flags x' hstep => ?_,
    fun seg x' hstep avoids => ?_⟩
  · rw [(flowInv_step flow hstep).sent.outstanding_eq]
    obtain ⟨-, rfl⟩ := hstep
    exact sendSegment_sentBytes_iff flow.unsent within
  · rw [(flowInv_step flow hstep).sent.outstanding_eq]
    obtain ⟨-, rfl⟩ := hstep
    have kept : sentBytes (x.apply env (.receive seg)).conn.unacknowledgedSegments =
        sentBytes (x.conn.leftBy seg) := receive_avoids_sentBytes avoids
    rw [kept, WithinWindow, and_iff_left fun reaches comes => absurd (avoids reaches) comes]
    exact Iff.rfl

/-- Two bytes are sent, the timer sends them again, and the ACK of the first
advertises a window of one byte. -/
theorem flow_control_small_window :
    let env : Env := .plain .little
    let x := [Op.send ⟨[97], by decide⟩ 16, .send ⟨[98], by decide⟩ 16, .timer,
        .receive ⟨1, 2, 20, thAck, 1, 0, []⟩].foldl (Flow.apply env)
      (.start env .cleared ⟨1440, 200⟩)
    x.conn.outstanding ≤ x.advertised.toNat ∧
    (∀ data flags x', FlowStep env x (.send data flags) x' →
      (x'.conn.outstanding ≤ x'.advertised.toNat ↔ WithinWindow env x (.send data flags))) ∧
    ∀ seg x', FlowStep env x (.receive seg) x' →
      (x.conn.ReachesAck seg → x.conn.AvoidsReturns seg) →
        (x'.conn.outstanding ≤ x'.advertised.toNat ↔ WithinWindow env x (.receive seg)) :=
  flow_control
    (run_foldl (fun x op => decide (x.conn.alive = true ∧ WithinWindow (.plain .little) x op))
      (fun _ _ h => ⟨⟨(of_decide_eq_true h).1, rfl⟩, (of_decide_eq_true h).2⟩)
      (by decide +kernel))

/-- One byte and then 1440 bytes are sent into the window of 1440 bytes the
handshake left. -/
theorem overshoot_exceeds_window :
    ¬ ∀ (ops : List Op) (x : Flow),
      Run (FlowStep (.plain .little)) (.start (.plain .little) .cleared ⟨1440, 200⟩) ops x →
        x.conn.outstanding ≤ x.advertised.toNat := by
  intro general
  have h := general [.send ⟨[97], by decide⟩ 16,
      .send ⟨List.replicate 1440 98, List.length_replicate.le⟩ 16] _
    (run_foldl (fun x _ => x.conn.alive) (fun _ _ alive => ⟨alive, rfl⟩) (by decide +kernel))
  revert h
  decide +kernel

end NetLabs.Ctcp
