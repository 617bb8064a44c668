/-
NetLabs.Ctcp.Retransmission — how often a queued segment is sent, and with
what contents.

Three loops can send the same segment: the two copies of the transmission
loop, guarded by the marker `arr[2]`, and the timer, guarded by the counter
`arr[3]`. The invariant ties both to the trace: the marker of a queued
segment is the number of times the first two sent it, the counter the number
of times the timer did. So each segment is sent at most once by the first
two and at most five times by the timer, whatever the order.

What is sent never changes: `SentInv.contents` traces every transmission back
to the queueing of a segment with the same address and the same contents, and
addresses of queued segments are distinct.
-/
import NetLabs.Ctcp.Steps
import Mathlib.Data.List.Nodup

namespace NetLabs.Ctcp

open NetLabs.Lib

variable {env : Env}

/-! ## Counting transmissions -/

/-- The action is the first transmission of the segment at `addr`. -/
def Event.firstSends (addr : Nat) : Event → Bool
  | .transmitted b => b.addr = addr
  | _ => false

/-- The action is a retransmission by the timer of the segment at `addr`. -/
def Event.resends (addr : Nat) : Event → Bool
  | .retransmitted b => b.addr = addr
  | _ => false

/-- The array an action queued. -/
def Event.queuedBuf? : Event → Option Buf
  | .queued b => some b
  | _ => none

namespace CtcpState

/-- How often the transmission loops sent the segment at `addr`. -/
def firstSends (s : CtcpState) (addr : Nat) : Nat := s.trace.countP (Event.firstSends addr)

/-- How often the timer sent the segment at `addr`. -/
def resends (s : CtcpState) (addr : Nat) : Nat := s.trace.countP (Event.resends addr)

/-- The segments handed to `conn_send` for the queued segment at `addr`, in
order. -/
def connSends (s : CtcpState) (addr : Nat) : List CtcpSegment :=
  ((s.trace.filterMap Event.sentBuf?).filter (·.addr = addr)).map Buf.segment

/-- The arrays queued so far. -/
def queuedBufs (s : CtcpState) : List Buf := s.trace.filterMap Event.queuedBuf?

/-- Every transmission is counted as a first one or as a resend. -/
theorem length_connSends (s : CtcpState) (addr : Nat) :
    (s.connSends addr).length = s.firstSends addr + s.resends addr := by
  rw [connSends, firstSends, resends]
  induction s.trace with
  | nil => rfl
  | cons e trace ih =>
    cases e <;>
      simp only [Event.sentBuf?, Event.firstSends, Event.resends, List.filterMap_cons,
        List.filter_cons, List.countP_cons] <;>
      (try split) <;> simp_all <;> omega

end CtcpState

/-! ## The invariant -/

/-- The markers of a queued segment tell how often it was sent. -/
structure Marked (s : CtcpState) (b : Buf) : Prop where
  sent : b.sent = s.firstSends b.addr
  retransmissions : b.retransmissions = s.resends b.addr

/-- What holds of transmissions in every state. -/
structure SentInv (env : Env) (s : CtcpState) : Prop where
  distinct : (s.sendQueue.map Buf.addr).Nodup
  marked : ∀ b ∈ s.sendQueue, Marked s b
  first_le : ∀ addr, s.firstSends addr ≤ 1
  resend_le : ∀ addr, s.resends addr ≤ 5
  unused : ∀ addr, s.allocations ≤ addr → s.firstSends addr = 0 ∧ s.resends addr = 0
  allocated : ∀ q ∈ s.queuedBufs, q.addr < s.allocations
  queuedDistinct : (s.queuedBufs.map Buf.addr).Nodup
  queued : ∀ b ∈ s.sendQueue, ∃ q ∈ s.queuedBufs, q.addr = b.addr ∧ q.segment = b.segment
  contents : ∀ b ∈ s.trace.filterMap Event.sentBuf?,
    ∃ q ∈ s.queuedBufs, q.addr = b.addr ∧ q.segment = b.segment
  faithful : ∀ q ∈ s.queuedBufs, q.segment.Faithful env.endian

/-- The segment `send_segment` builds is well formed: its length field is its
length and its checksum the checksum of its contents. -/
theorem faithful_makeSegment (s : CtcpState) (data : Payload) (flags : Int) :
    (s.makeSegment env data.1 flags).Faithful env.endian := by
  refine ⟨?_, rfl⟩
  have hd : data.1.length ≤ 1440 := data.2
  simp only [CtcpState.makeSegment, UInt16.toNat_ofNat', segmentHdrSize]
  omega

theorem sentInv_init (block : Bbr) (config : CtcpConfig) :
    SentInv env (ctcpInit env block config) where
  distinct := .nil
  marked := List.forall_mem_nil _
  first_le _ := Nat.zero_le _
  resend_le _ := Nat.zero_le _
  unused _ _ := ⟨rfl, rfl⟩
  allocated := List.forall_mem_nil _
  queuedDistinct := .nil
  queued := List.forall_mem_nil _
  contents := List.forall_mem_nil _
  faithful := List.forall_mem_nil _

/-! ## Three kinds of steps

A step that sends no queued segment and queues none keeps the invariant as
soon as the send queue only loses segments. A step that sends one queued
segment replaces its array in place. Queueing appends a fresh array. -/

/-- A step that neither queues nor sends a queued segment. -/
theorem SentInv.of_quiet {s t : CtcpState} (h : SentInv env s)
    (queue : t.sendQueue.Sublist s.sendQueue)
    (first : ∀ addr, t.firstSends addr = s.firstSends addr)
    (resend : ∀ addr, t.resends addr = s.resends addr)
    (bufs : t.queuedBufs = s.queuedBufs)
    (sent : t.trace.filterMap Event.sentBuf? = s.trace.filterMap Event.sentBuf?)
    (alloc : s.allocations ≤ t.allocations) : SentInv env t where
  distinct := h.distinct.sublist (queue.map _)
  marked b hb := by
    obtain ⟨h1, h2⟩ := h.marked b (queue.subset hb)
    exact ⟨by rw [first]; exact h1, by rw [resend]; exact h2⟩
  first_le addr := first addr ▸ h.first_le addr
  resend_le addr := resend addr ▸ h.resend_le addr
  unused addr ha := by rw [first, resend]; exact h.unused addr (alloc.trans ha)
  allocated q hq := (h.allocated q (bufs ▸ hq)).trans_le alloc
  queuedDistinct := bufs ▸ h.queuedDistinct
  queued b hb := bufs ▸ h.queued b (queue.subset hb)
  contents := by rw [bufs, sent]; exact h.contents
  faithful := bufs ▸ h.faithful

/-- A step that sends the queued segment `b` and updates its array to `u`. -/
theorem SentInv.of_send {s t : CtcpState} {pre post : List Buf} {b u : Buf}
    (h : SentInv env s) (queue : s.sendQueue = pre ++ b :: post)
    (queue' : t.sendQueue = pre ++ u :: post)
    (addr_eq : u.addr = b.addr) (segment_eq : u.segment = b.segment)
    (others : ∀ addr, addr ≠ b.addr →
      t.firstSends addr = s.firstSends addr ∧ t.resends addr = s.resends addr)
    (marked : Marked t u) (first : t.firstSends b.addr ≤ 1) (resend : t.resends b.addr ≤ 5)
    (bufs : t.queuedBufs = s.queuedBufs)
    (sent : t.trace.filterMap Event.sentBuf? = s.trace.filterMap Event.sentBuf? ++ [b])
    (alloc : t.allocations = s.allocations) : SentInv env t := by
  have hb : b ∈ s.sendQueue := by simp [queue]
  obtain ⟨q, hq, hqa, hqs⟩ := h.queued b hb
  have addrs : t.sendQueue.map Buf.addr = s.sendQueue.map Buf.addr := by
    simp [queue, queue', addr_eq]
  have mem_of (c : Buf) (hc : c ∈ t.sendQueue) : c = u ∨ c ∈ s.sendQueue := by
    rw [queue'] at hc
    rw [queue]
    simp only [List.mem_append, List.mem_cons] at hc ⊢
    tauto
  constructor
  case distinct => exact addrs ▸ h.distinct
  case marked =>
    intro c hc
    by_cases hcu : c = u
    · exact hcu ▸ marked
    · -- another array has another address
      have hmem : c ∈ s.sendQueue := (mem_of c hc).resolve_left hcu
      have hu : u ∈ t.sendQueue := by simp [queue']
      have hne : c.addr ≠ b.addr := by
        intro he
        exact hcu (List.inj_on_of_nodup_map (addrs ▸ h.distinct) hc hu (he.trans addr_eq.symm))
      obtain ⟨h1, h2⟩ := h.marked c hmem
      obtain ⟨e1, e2⟩ := others c.addr hne
      exact ⟨e1 ▸ h1, e2 ▸ h2⟩
  case first_le =>
    intro addr
    by_cases ha : addr = b.addr
    · exact ha ▸ first
    · exact (others addr ha).1 ▸ h.first_le addr
  case resend_le =>
    intro addr
    by_cases ha : addr = b.addr
    · exact ha ▸ resend
    · exact (others addr ha).2 ▸ h.resend_le addr
  case unused =>
    intro addr ha
    have hlt := h.allocated q hq
    rw [alloc] at ha
    have hne : addr ≠ b.addr := by omega
    rw [(others addr hne).1, (others addr hne).2]
    exact h.unused addr ha
  case allocated =>
    intro q hq
    rw [bufs] at hq
    rw [alloc]
    exact h.allocated q hq
  case queuedDistinct => exact bufs ▸ h.queuedDistinct
  case queued =>
    intro c hc
    rw [bufs]
    rcases mem_of c hc with rfl | hmem
    · exact ⟨q, hq, hqa.trans addr_eq.symm, hqs.trans segment_eq.symm⟩
    · exact h.queued c hmem
  case contents =>
    intro c hc
    rw [sent, List.mem_append, List.mem_singleton] at hc
    rw [bufs]
    rcases hc with hc | rfl
    · exact h.contents c hc
    · exact ⟨q, hq, hqa, hqs⟩
  case faithful => exact bufs ▸ h.faithful

/-- A buffer behind others of lower addresses. -/
theorem nodup_addr_snoc {bufs : List Buf} {b : Buf} (distinct : (bufs.map Buf.addr).Nodup)
    (below : ∀ q ∈ bufs, q.addr < b.addr) : ((bufs ++ [b]).map Buf.addr).Nodup := by
  rw [List.map_append, List.nodup_append]
  refine ⟨distinct, List.nodup_singleton b.addr, ?_⟩
  simp only [List.mem_map, List.map_cons, List.map_nil, List.mem_singleton]
  rintro _ ⟨q, hq, rfl⟩ _ rfl
  exact (below q hq).ne

/-- Queueing a segment keeps the invariant: its address is fresh. -/
theorem sentInv_enqueue (s : CtcpState) (data : Payload) (flags : Int) (h : SentInv env s) :
    SentInv env (s.enqueue env data.1 flags) := by
  have queue : (s.enqueue env data.1 flags).sendQueue =
      s.sendQueue ++ [s.makeBuf env data.1 flags] := by
    simp [CtcpState.enqueue, CtcpState.sendQueue, CtcpState.log]
  have bufs : (s.enqueue env data.1 flags).queuedBufs =
      s.queuedBufs ++ [s.makeBuf env data.1 flags] := by
    simp [CtcpState.enqueue, CtcpState.queuedBufs, CtcpState.log, Event.queuedBuf?]
  have first : ∀ addr, (s.enqueue env data.1 flags).firstSends addr = s.firstSends addr := by
    simp [CtcpState.enqueue, CtcpState.firstSends, CtcpState.log, Event.firstSends]
  have resend : ∀ addr, (s.enqueue env data.1 flags).resends addr = s.resends addr := by
    simp [CtcpState.enqueue, CtcpState.resends, CtcpState.log, Event.resends]
  have sent : (s.enqueue env data.1 flags).trace.filterMap Event.sentBuf? =
      s.trace.filterMap Event.sentBuf? := by
    simp [CtcpState.enqueue, CtcpState.log, Event.sentBuf?]
  have alloc : (s.enqueue env data.1 flags).allocations = s.allocations + 1 := rfl
  have addr_eq : (s.makeBuf env data.1 flags).addr = s.allocations := rfl
  have below : ∀ b ∈ s.sendQueue, b.addr < s.allocations := by
    intro b hb
    obtain ⟨q, hq, hqa, _⟩ := h.queued b hb
    exact hqa ▸ h.allocated q hq
  constructor
  case distinct =>
    rw [queue]
    exact nodup_addr_snoc h.distinct below
  case marked =>
    intro b hb
    rw [queue, List.mem_append, List.mem_singleton] at hb
    rcases hb with hb | rfl
    · obtain ⟨h1, h2⟩ := h.marked b hb
      exact ⟨by rw [first]; exact h1, by rw [resend]; exact h2⟩
    · obtain ⟨h1, h2⟩ := h.unused s.allocations le_rfl
      exact ⟨by rw [first, addr_eq, h1]; rfl, by rw [resend, addr_eq, h2]; rfl⟩
  case first_le =>
    intro addr
    exact first addr ▸ h.first_le addr
  case resend_le =>
    intro addr
    exact resend addr ▸ h.resend_le addr
  case unused =>
    intro addr ha
    rw [alloc] at ha
    rw [first, resend]
    exact h.unused addr (by omega)
  case allocated =>
    intro q hq
    rw [bufs, List.mem_append, List.mem_singleton] at hq
    rw [alloc]
    rcases hq with hq | rfl
    · exact (h.allocated q hq).trans (Nat.lt_succ_self _)
    · rw [addr_eq]
      exact Nat.lt_succ_self _
  case queuedDistinct =>
    rw [bufs]
    exact nodup_addr_snoc h.queuedDistinct h.allocated
  case queued =>
    intro b hb
    rw [queue, List.mem_append, List.mem_singleton] at hb
    simp only [bufs, List.mem_append, List.mem_singleton]
    rcases hb with hb | rfl
    · obtain ⟨q, hq, hqb⟩ := h.queued b hb
      exact ⟨q, .inl hq, hqb⟩
    · exact ⟨_, .inr rfl, rfl, rfl⟩
  case contents =>
    intro b hb
    rw [sent] at hb
    obtain ⟨q, hq, hqb⟩ := h.contents b hb
    exact ⟨q, by rw [bufs]; exact List.mem_append_left _ hq, hqb⟩
  case faithful =>
    intro q hq
    rw [bufs, List.mem_append, List.mem_singleton] at hq
    rcases hq with hq | rfl
    · exact h.faithful q hq
    · exact faithful_makeSegment s data flags

/-- The first transmission of a segment: its marker was 0. -/
theorem sentInv_transmitOne {s : CtcpState} {visited rest : List Buf} {b : Buf} (h : SentInv env s)
    (queue : s.unacknowledgedSegments = visited ++ b :: rest) (unsent : b.sent = 0) :
    SentInv env (s.transmitOne env visited b rest) := by
  have hq : s.sendQueue = visited ++ b :: (rest ++ s.outputPendingSegments) := by
    simp [CtcpState.sendQueue, queue]
  have first : ∀ addr, (s.transmitOne env visited b rest).firstSends addr =
      s.firstSends addr + if b.addr = addr then 1 else 0 := by
    simp [CtcpState.transmitOne, CtcpState.log, CtcpState.firstSends, Event.firstSends,
      List.countP_cons]
  have resend : ∀ addr, (s.transmitOne env visited b rest).resends addr = s.resends addr := by
    simp [CtcpState.transmitOne, CtcpState.log, CtcpState.resends, Event.resends]
  obtain ⟨h1, h2⟩ := h.marked b (by simp [hq])
  have none : s.firstSends b.addr = 0 := by rw [unsent] at h1; omega
  apply h.of_send (u := s.markSent env b) hq
  case queue' => simp [CtcpState.transmitOne, CtcpState.log, CtcpState.sendQueue]
  case addr_eq => rfl
  case segment_eq => rfl
  case others =>
    intro addr ha
    rw [first, resend, if_neg (Ne.symm ha)]
    exact ⟨rfl, rfl⟩
  case marked =>
    constructor
    · rw [first, CtcpState.markSent, none, if_pos rfl]
      rfl
    · rw [resend]
      exact h2
  case first => rw [first, none, if_pos rfl]
  case resend =>
    rw [resend]
    exact h.resend_le _
  case bufs => simp [CtcpState.transmitOne, CtcpState.log, CtcpState.queuedBufs, Event.queuedBuf?]
  case sent => simp [CtcpState.transmitOne, CtcpState.log, Event.sentBuf?]
  case alloc => rfl

/-- A retransmission: the timer sends only below five. -/
theorem sentInv_retransmitOne {s : CtcpState} {visited rest : List Buf} {b : Buf}
    (h : SentInv env s) (queue : s.unacknowledgedSegments = visited ++ b :: rest)
    (few : b.retransmissions < 5) : SentInv env (s.retransmitOne env visited b rest) := by
  have hq : s.sendQueue = visited ++ b :: (rest ++ s.outputPendingSegments) := by
    simp [CtcpState.sendQueue, queue]
  have first : ∀ addr, (s.retransmitOne env visited b rest).firstSends addr =
      s.firstSends addr := by
    simp [CtcpState.retransmitOne, CtcpState.log, CtcpState.firstSends, Event.firstSends]
  have resend : ∀ addr, (s.retransmitOne env visited b rest).resends addr =
      s.resends addr + if b.addr = addr then 1 else 0 := by
    simp [CtcpState.retransmitOne, CtcpState.log, CtcpState.resends, Event.resends,
      List.countP_cons]
  obtain ⟨h1, h2⟩ := h.marked b (by simp [hq])
  have counted : s.resends b.addr < 5 := by omega
  apply h.of_send (u := s.markResent env b) hq
  case queue' => simp [CtcpState.retransmitOne, CtcpState.log, CtcpState.sendQueue]
  case addr_eq => rfl
  case segment_eq => rfl
  case others =>
    intro addr ha
    rw [first, resend, if_neg (Ne.symm ha)]
    exact ⟨rfl, rfl⟩
  case marked =>
    constructor
    · rw [first]
      exact h1
    · rw [resend, CtcpState.markResent, if_pos rfl, h2]
      push_cast
      rfl
  case first =>
    rw [first]
    exact h.first_le _
  case resend =>
    rw [resend, if_pos rfl]
    exact counted
  case bufs => simp [CtcpState.retransmitOne, CtcpState.log, CtcpState.queuedBufs, Event.queuedBuf?]
  case sent => simp [CtcpState.retransmitOne, CtcpState.log, Event.sentBuf?]
  case alloc => rfl

/-- Every elementary step keeps the invariant. -/
theorem sentInv_micro {half : Half} {s t : CtcpState} (h : SentInv env s)
    (hstep : Micro env half s t) : SentInv env t := by
  cases hstep with
  | tune tuned =>
    obtain ⟨_, _, _, _, _, _, _, rfl⟩ := tuned
    exact h.of_quiet (List.Sublist.refl _) (fun _ => rfl) (fun _ => rfl) rfl rfl le_rfl
  | limit | recordSeqno | fin | destroy =>
    exact h.of_quiet (List.Sublist.refl _) (fun _ => rfl) (fun _ => rfl) rfl rfl le_rfl
  | control =>
    refine h.of_quiet (List.Sublist.refl _) ?_ ?_ ?_ ?_ (Nat.le_succ _) <;>
      simp [CtcpState.sendControl, CtcpState.log, CtcpState.firstSends, CtcpState.resends,
        CtcpState.queuedBufs, Event.firstSends, Event.resends, Event.queuedBuf?, Event.sentBuf?]
  | output =>
    refine h.of_quiet (List.Sublist.refl _) ?_ ?_ ?_ ?_ le_rfl <;>
      simp [CtcpState.log, CtcpState.firstSends, CtcpState.resends, CtcpState.queuedBufs,
        Event.firstSends, Event.resends, Event.queuedBuf?, Event.sentBuf?]
  | admitted pending room =>
    refine h.of_quiet ?_ ?_ ?_ ?_ ?_ le_rfl <;>
      simp [CtcpState.admitOne, CtcpState.log, CtcpState.firstSends, CtcpState.resends,
        CtcpState.queuedBufs, CtcpState.sendQueue, Event.firstSends, Event.resends,
        Event.queuedBuf?, Event.sentBuf?, pending]
  | remove queue =>
    refine h.of_quiet ?_ ?_ ?_ ?_ ?_ le_rfl <;>
      simp [CtcpState.removeFront, CtcpState.log, CtcpState.firstSends, CtcpState.resends,
        CtcpState.queuedBufs, CtcpState.sendQueue, Event.firstSends, Event.resends,
        Event.queuedBuf?, Event.sentBuf?, queue]
  | transmit queue unsent => exact sentInv_transmitOne h queue unsent
  | retransmit queue due => exact sentInv_retransmitOne h queue due.2

/-- The invariant holds in every state of every run. -/
theorem sentInv_run {block : Bbr} {config : CtcpConfig} {ops : List Op} {s : CtcpState}
    (h : Run (Step env) (ctcpInit env block config) ops s) : SentInv env s :=
  run_invariant (SentInv env) sentInv_enqueue sentInv_micro (sentInv_init block config) h

/-! ## The timer gives up in time -/

/-- If the connection survives the retransmission loop, no counter of the
segments it went over is at 5. -/
theorem retransmitLoop_alive (visited rest : List Buf) (s : CtcpState)
    (queue : s.unacknowledgedSegments = visited ++ rest)
    (few : ∀ b ∈ visited, b.retransmissions < 5)
    (alive : (CtcpState.retransmitLoop env visited rest s).alive = true) :
    ∀ b ∈ (CtcpState.retransmitLoop env visited rest s).unacknowledgedSegments,
      b.retransmissions < 5 := by
  induction rest generalizing visited s with
  | nil =>
    rw [CtcpState.retransmitLoop, queue, List.append_nil]
    exact few
  | cons b rest ih =>
    rw [CtcpState.retransmitLoop] at alive ⊢
    split_ifs at alive ⊢ with due give idle
    · simp [CtcpState.destroy] at alive
    · refine ih _ _ (by simp [CtcpState.retransmitOne, CtcpState.log]) (fun c hc => ?_) alive
      rw [List.mem_append, List.mem_singleton] at hc
      rcases hc with hc | rfl
      · exact few c hc
      · simp only [CtcpState.markResent]
        omega
    · simp [CtcpState.destroy] at alive
    · refine ih _ _ (by simp [queue]) (fun c hc => ?_) alive
      rw [List.mem_append, List.mem_singleton] at hc
      rcases hc with hc | rfl
      · exact few c hc
      · omega

/-- **Bounded, faithful retransmission.** In every run every queued segment
is handed to `conn_send` at most 6 times, each time with the contents it was
queued with, whose length field is its true length and whose checksum is
correct; and a connection that is alive when `ctcp_timer` returns holds no
unacknowledged segment that was retransmitted 5 times. -/
theorem retransmission_bounded {block : Bbr} {config : CtcpConfig} {ops : List Op}
    {s : CtcpState} (h : Run (Step env) (ctcpInit env block config) ops s) :
    (∀ q ∈ s.queuedBufs,
      (s.connSends q.addr).length ≤ 6 ∧
      ∀ seg ∈ s.connSends q.addr,
        seg = q.segment ∧ seg.len.toNat = segmentHdrSize + seg.data.length ∧
          seg.cksum = seg.correctCksum env.endian) ∧
    ∀ t, Step env s .timer t → t.alive = true →
      ∀ b ∈ t.unacknowledgedSegments, b.retransmissions < 5 := by
  have inv := sentInv_run h
  refine ⟨fun q hq => ⟨?_, fun seg hseg => ?_⟩, fun t hstep alive => ?_⟩
  · rw [s.length_connSends]
    have h1 := inv.first_le q.addr
    have h2 := inv.resend_le q.addr
    omega
  · simp only [CtcpState.connSends, List.mem_map, List.mem_filter, decide_eq_true_eq] at hseg
    obtain ⟨b, ⟨hb, hba⟩, rfl⟩ := hseg
    obtain ⟨q', hq', hqa, hqs⟩ := inv.contents b hb
    obtain rfl : q' = q :=
      List.inj_on_of_nodup_map inv.queuedDistinct hq' hq (hqa.trans hba)
    obtain ⟨hlen, hck⟩ := inv.faithful q' hq'
    rw [← hqs]
    exact ⟨rfl, hlen, hck⟩
  · rw [hstep.2] at alive ⊢
    exact retransmitLoop_alive [] _ _ rfl nofun alive

/-- A segment is queued, sent, and sent again by the timer. -/
theorem retransmission_bounded_resent :
    let s := (CtcpState.fresh (.plain .little)).applyAll (.plain .little)
      [.send ⟨[97, 98], by decide⟩ 16, .timer]
    (∀ q ∈ s.queuedBufs,
      (s.connSends q.addr).length ≤ 6 ∧
      ∀ seg ∈ s.connSends q.addr,
        seg = q.segment ∧ seg.len.toNat = segmentHdrSize + seg.data.length ∧
          seg.cksum = seg.correctCksum .little) ∧
    ∀ t, Step (.plain .little) s .timer t → t.alive = true →
      ∀ b ∈ t.unacknowledgedSegments, b.retransmissions < 5 :=
  retransmission_bounded (run_applyAll (by decide +kernel))

end NetLabs.Ctcp
