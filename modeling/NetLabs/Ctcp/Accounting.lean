/-
NetLabs.Ctcp.Accounting — the three byte counters of the sender.

`sliding_window_size_bytes`, `inflight_data` and `app_limited_until` count
header and payload bytes of segments in `unacknowledged_segments`: all of
them, those already sent, and those sent when the application last ran dry.
They are C integers of 16 and 32 bits, changed by addition and subtraction
alone.

They do not stay true. The timer takes the length of a segment it
retransmits off `sliding_window_size_bytes` and leaves the segment queued
(`retransmission_breaks_accounting`). A segment that is acknowledged before
it was sent is taken off an `inflight_data` it was never added to, and a
window near 65535 lets the admission loop overflow 16 bits. `Accounted` rules
out these three, as a condition on each action of a run; under it the
counters are right in every state (`senderAccounting`).
-/
import NetLabs.Ctcp.Retransmission
import Mathlib.Algebra.Order.BigOperators.Group.List
import Mathlib.Algebra.Order.Group.Nat

namespace NetLabs.Ctcp

open NetLabs.Lib

variable {env : Env}

/-! ## What the counters should be -/

/-- The bytes of segments, headers included: the sum of their `len` fields. -/
def windowBytes (bs : List Buf) : Nat := (bs.map fun b => b.segment.len.toNat).sum

@[simp] theorem windowBytes_nil : windowBytes [] = 0 := rfl

@[simp] theorem windowBytes_cons (b : Buf) (bs : List Buf) :
    windowBytes (b :: bs) = b.segment.len.toNat + windowBytes bs := by
  simp [windowBytes]

@[simp] theorem windowBytes_append (as bs : List Buf) :
    windowBytes (as ++ bs) = windowBytes as + windowBytes bs := by
  simp [windowBytes]

/-- Part of a list of segments has at most its bytes. -/
theorem windowBytes_le {as bs : List Buf} (h : as.Sublist bs) :
    windowBytes as ≤ windowBytes bs :=
  (h.map _).sum_le_sum fun _ _ => Nat.zero_le _

/-- The segment of `b` has been handed to `conn_send`. -/
def CtcpState.wasSent (s : CtcpState) (b : Buf) : Bool := !(s.connSends b.addr).isEmpty

/-- The counters are what they count. The sums are exact, so no counter has
wrapped around. -/
structure SenderAccounting (s : CtcpState) : Prop where
  sliding : s.slidingWindowSizeBytes.toNat = windowBytes s.unacknowledgedSegments
  inflight : s.inflightData.toNat = windowBytes (s.unacknowledgedSegments.filter s.wasSent)
  limited : s.appLimitedUntil.toNat ≤ s.inflightData.toNat

instance (s : CtcpState) : Decidable (SenderAccounting s) :=
  decidable_of_iff
    (s.slidingWindowSizeBytes.toNat = windowBytes s.unacknowledgedSegments ∧
      s.inflightData.toNat = windowBytes (s.unacknowledgedSegments.filter s.wasSent) ∧
      s.appLimitedUntil.toNat ≤ s.inflightData.toNat)
    ⟨fun h => ⟨h.1, h.2.1, h.2.2⟩, fun h => ⟨h.sliding, h.inflight, h.limited⟩⟩

/-- The actions the counters survive: an admission fits 16 bits, an
acknowledged segment has been sent, and the timer sends nothing. -/
def Event.Accounted : Event → Prop
  | .admitted b sliding => sliding.toNat + b.segment.len.toNat < 65536
  | .acknowledged b => b.sent ≠ 0
  | .retransmitted _ => False
  | _ => True

instance : DecidablePred Event.Accounted
  | .admitted _ _ => inferInstanceAs (Decidable (_ < _))
  | .acknowledged _ => inferInstanceAs (Decidable (_ ≠ _))
  | .retransmitted _ => inferInstanceAs (Decidable False)
  | .queued _ | .transmitted _ | .control _ _ | .output _ => inferInstanceAs (Decidable True)

/-! ## The invariant -/

/-- The counters by the marker `arr[2]`. `limited` names the segments
`app_limited_until` counts: the oldest `k`, all of them sent. -/
structure AccountInv (s : CtcpState) : Prop where
  pending : ∀ b ∈ s.outputPendingSegments, b.sent = 0
  sliding : s.slidingWindowSizeBytes.toNat = windowBytes s.unacknowledgedSegments
  inflight : s.inflightData.toNat =
    windowBytes (s.unacknowledgedSegments.filter fun b => b.sent ≠ 0)
  limited : ∃ k ≤ s.unacknowledgedSegments.length,
    s.appLimitedUntil.toNat = windowBytes (s.unacknowledgedSegments.take k) ∧
      ∀ b ∈ s.unacknowledgedSegments.take k, b.sent ≠ 0

/-- Every queued segment has at least a header's length. -/
theorem SentInv.len_pos {s : CtcpState} (h : SentInv env s) {b : Buf} (hb : b ∈ s.sendQueue) :
    0 < b.segment.len.toNat := by
  obtain ⟨q, hq, _, hqs⟩ := h.queued b hb
  have hlen := (h.faithful q hq).len_eq
  rw [← hqs, hlen, segmentHdrSize]
  omega

/-- If the bytes in flight are all bytes, every segment is in flight. -/
theorem all_sent_of_windowBytes {bs : List Buf} (pos : ∀ b ∈ bs, 0 < b.segment.len.toNat)
    (h : windowBytes (bs.filter fun b => b.sent ≠ 0) = windowBytes bs) :
    ∀ b ∈ bs, b.sent ≠ 0 := by
  induction bs with
  | nil => nofun
  | cons b bs ih =>
    have hle := windowBytes_le (List.filter_sublist (l := bs) (p := fun b => b.sent ≠ 0))
    have hb := pos b List.mem_cons_self
    rw [List.filter_cons] at h
    split at h
    · rename_i hsent
      rw [windowBytes_cons, windowBytes_cons] at h
      have ih' := ih (fun c hc => pos c (List.mem_cons_of_mem b hc)) (by omega)
      simpa using ⟨by simpa using hsent, by simpa using ih'⟩
    · rw [windowBytes_cons] at h
      omega

theorem accountInv_init (block : Bbr) (config : CtcpConfig) :
    AccountInv (ctcpInit env block config) :=
  ⟨nofun, rfl, rfl, 0, le_rfl, rfl, nofun⟩

theorem accountInv_enqueue (s : CtcpState) (data : List UInt8) (flags : Int)
    (h : AccountInv s) : AccountInv (s.enqueue env data flags) := by
  refine ⟨fun b hb => ?_, h.sliding, h.inflight, h.limited⟩
  simp only [CtcpState.enqueue, CtcpState.log, List.mem_append, List.mem_singleton] at hb
  rcases hb with hb | rfl
  · exact h.pending b hb
  · rfl

/-- A segment moves from the pending queue into the window. -/
theorem accountInv_admit {s : CtcpState} {b : Buf} {rest : List Buf} (h : AccountInv s)
    (pending : s.outputPendingSegments = b :: rest)
    (fits : s.slidingWindowSizeBytes.toNat + b.segment.len.toNat < 65536) :
    AccountInv (s.admitOne b rest) := by
  have unsent : b.sent = 0 := h.pending b (by simp [pending])
  obtain ⟨k, hk, hlim, hsent⟩ := h.limited
  refine ⟨fun c hc => h.pending c (by simp [pending, show c ∈ rest from hc]), ?_, ?_, k, ?_, ?_⟩
  · simp only [CtcpState.admitOne, CtcpState.log, UInt16.toNat_add, windowBytes_append,
      windowBytes_cons, windowBytes_nil]
    have := h.sliding
    omega
  · simpa [CtcpState.admitOne, CtcpState.log, List.filter_cons, unsent] using h.inflight
  · simp only [CtcpState.admitOne, CtcpState.log, List.length_append]
    omega
  · simp only [CtcpState.admitOne, CtcpState.log, List.take_append_of_le_length hk]
    exact ⟨hlim, hsent⟩

/-- With nothing pending and every byte in flight, the whole window is
application limited. -/
theorem accountInv_limit {s : CtcpState} (h : AccountInv s)
    (pos : ∀ b ∈ s.unacknowledgedSegments, 0 < b.segment.len.toNat)
    (all : s.slidingWindowSizeBytes.toUInt32 - s.inflightData = 0) :
    AccountInv { s with appLimitedUntil := s.inflightData } := by
  have hle := windowBytes_le
    (List.filter_sublist (l := s.unacknowledgedSegments) (p := fun b => b.sent ≠ 0))
  have heq : s.slidingWindowSizeBytes.toNat = s.inflightData.toNat := by
    have h0 := congrArg UInt32.toNat all
    have hs := s.slidingWindowSizeBytes.toNat_lt
    have h1 := h.sliding
    have h2 := h.inflight
    rw [UInt32.toNat_sub, UInt16.toNat_toUInt32] at h0
    simp only [UInt32.toNat_zero] at h0
    omega
  have sent := all_sent_of_windowBytes pos (by rw [← h.inflight, ← heq, h.sliding])
  refine ⟨h.pending, h.sliding, h.inflight, _, le_rfl, ?_, ?_⟩
  · rw [List.take_length, ← h.sliding, heq]
  · rw [List.take_length]
    exact sent

/-- A segment of the window is sent for the first time. -/
theorem accountInv_transmit {s : CtcpState} {visited rest : List Buf} {b : Buf}
    (h : AccountInv s) (queue : s.unacknowledgedSegments = visited ++ b :: rest)
    (unsent : b.sent = 0) : AccountInv (s.transmitOne env visited b rest) := by
  obtain ⟨k, hk, hlim, hsent⟩ := h.limited
  have hk' : k ≤ visited.length := by
    by_contra hlt
    refine hsent b ?_ unsent
    rw [queue, List.mem_take_iff_getElem]
    refine ⟨visited.length, ?_, ?_⟩
    · simp only [List.length_append, List.length_cons]
      omega
    · simp
  have hs := h.sliding
  have hi := h.inflight
  have hlt := s.slidingWindowSizeBytes.toNat_lt
  have hle := windowBytes_le
    (List.filter_sublist (l := s.unacknowledgedSegments) (p := fun b => b.sent ≠ 0))
  simp only [queue, List.filter_append, List.filter_cons, unsent, windowBytes_append,
    windowBytes_cons, ne_eq, not_true_eq_false, decide_false, Bool.false_eq_true,
    if_false] at hs hi hle
  have hvis := windowBytes_le (List.filter_sublist (l := visited) (p := fun b => b.sent ≠ 0))
  have hrest := windowBytes_le (List.filter_sublist (l := rest) (p := fun b => b.sent ≠ 0))
  simp only [ne_eq] at hvis hrest
  refine ⟨h.pending, ?_, ?_, k, ?_, ?_⟩
  · simpa [CtcpState.transmitOne, CtcpState.log, CtcpState.markSent] using hs
  · simp only [CtcpState.transmitOne, CtcpState.log, CtcpState.markSent, List.filter_append,
      List.filter_cons, windowBytes_append, windowBytes_cons, UInt32.toNat_add,
      UInt16.toNat_toUInt32, ne_eq, one_ne_zero, not_false_eq_true, decide_true, if_true]
    omega
  · simp only [CtcpState.transmitOne, CtcpState.log, List.length_append]
    omega
  · rw [queue, List.take_append_of_le_length hk'] at hlim hsent
    simp only [CtcpState.transmitOne, CtcpState.log, List.take_append_of_le_length hk']
    exact ⟨hlim, hsent⟩

/-- A sent segment leaves the front of the window. -/
theorem accountInv_remove {s : CtcpState} {b : Buf} {rest : List Buf} (h : AccountInv s)
    (queue : s.unacknowledgedSegments = b :: rest) (pos : 0 < b.segment.len.toNat)
    (sent : b.sent ≠ 0) : AccountInv (s.removeFront b rest) := by
  obtain ⟨k, hk, hlim, hsent⟩ := h.limited
  have hs := h.sliding
  have hi := h.inflight
  have hlt := s.slidingWindowSizeBytes.toNat_lt
  have hinf := s.inflightData.toNat_lt
  simp only [queue, List.filter_cons, windowBytes_cons, ne_eq, sent, not_false_eq_true,
    decide_true, if_true] at hs hi
  refine ⟨h.pending, ?_, ?_, k - 1, ?_, ?_⟩
  · simp only [CtcpState.removeFront, CtcpState.log, UInt16.toNat_sub]
    omega
  · simp only [CtcpState.removeFront, CtcpState.log, UInt32.toNat_sub, UInt16.toNat_toUInt32,
      ne_eq]
    omega
  · rw [queue, List.length_cons] at hk
    simp only [CtcpState.removeFront, CtcpState.log]
    omega
  · simp only [CtcpState.removeFront, CtcpState.log]
    have happ := s.appLimitedUntil.toNat_lt
    cases k with
    | zero =>
      -- nothing is application limited, and nothing is subtracted
      have hz : s.appLimitedUntil.toNat = 0 := by simpa using hlim
      rw [if_neg (by rw [gt_iff_lt, UInt32.lt_iff_toNat_lt]; simp [hz])]
      exact ⟨by simpa using hz, fun c hc => (List.not_mem_nil hc).elim⟩
    | succ k =>
      rw [queue, List.take_succ_cons, windowBytes_cons] at hlim
      rw [queue, List.take_succ_cons] at hsent
      rw [if_pos (by rw [gt_iff_lt, UInt32.lt_iff_toNat_lt]; simp; omega)]
      refine ⟨?_, fun c hc => hsent c (List.mem_cons_of_mem b hc)⟩
      simp only [UInt32.toNat_sub, UInt16.toNat_toUInt32, Nat.add_sub_cancel]
      omega

/-- A step that leaves both queues and the three counters alone. -/
theorem AccountInv.of_frame {s t : CtcpState} (h : AccountInv s)
    (queue : t.unacknowledgedSegments = s.unacknowledgedSegments)
    (pending : t.outputPendingSegments = s.outputPendingSegments)
    (sliding : t.slidingWindowSizeBytes = s.slidingWindowSizeBytes)
    (inflight : t.inflightData = s.inflightData)
    (limited : t.appLimitedUntil = s.appLimitedUntil) : AccountInv t :=
  ⟨pending ▸ h.pending, queue ▸ sliding ▸ h.sliding, queue ▸ inflight ▸ h.inflight,
    queue ▸ limited ▸ h.limited⟩

/-- The invariant, given that the actions so far were `Accounted`. -/
def AccountedInv (env : Env) (s : CtcpState) : Prop :=
  SentInv env s ∧ ((∀ e ∈ s.trace, e.Accounted) → AccountInv s)

theorem accountedInv_micro {half : Half} {s t : CtcpState} (h : AccountedInv env s)
    (hstep : Micro env half s t) : AccountedInv env t := by
  obtain ⟨inv, account⟩ := h
  refine ⟨sentInv_micro inv hstep, fun accounted => ?_⟩
  have ha : AccountInv s := account fun e he => accounted e ((micro_trace hstep).subset he)
  have pos : ∀ b ∈ s.unacknowledgedSegments, 0 < b.segment.len.toNat :=
    fun b hb => inv.len_pos (List.mem_append_left _ hb)
  have last : ∀ e, t.trace = s.trace ++ [e] → e.Accounted :=
    fun e he => accounted e (by simp [he])
  cases hstep with
  | tune tuned =>
    obtain ⟨_, _, _, _, _, _, _, rfl⟩ := tuned
    exact ha.of_frame rfl rfl rfl rfl rfl
  | control | recordSeqno | output | fin | destroy => exact ha.of_frame rfl rfl rfl rfl rfl
  | admitted pending room => exact accountInv_admit ha pending (last (.admitted _ _) rfl)
  | limit pending all => exact accountInv_limit ha pos all
  | transmit queue unsent => exact accountInv_transmit ha queue unsent
  | remove queue =>
    exact accountInv_remove ha queue (pos _ (by simp [queue])) (last (.acknowledged _) rfl)
  | retransmit queue due => exact (last (.retransmitted _) rfl).elim

theorem accountedInv_enqueue (s : CtcpState) (data : Payload) (flags : Int)
    (h : AccountedInv env s) : AccountedInv env (s.enqueue env data.1 flags) := by
  refine ⟨sentInv_enqueue s data flags h.1, fun accounted => ?_⟩
  refine accountInv_enqueue s data.1 flags (h.2 fun e he => accounted e ?_)
  exact List.mem_append_left _ he

/-! ## From the marker to `conn_send` -/

/-- The markers `arr[2]` and `arr[3]` tell that the segment was sent. -/
def Buf.WasSent (b : Buf) : Prop := b.sent ≠ 0 ∨ b.retransmissions ≠ 0

instance (b : Buf) : Decidable b.WasSent := inferInstanceAs (Decidable (_ ∨ _))

/-- The markers are set exactly if `conn_send` was called for the segment. -/
theorem SentInv.wasSent_iff {s : CtcpState} (h : SentInv env s) {b : Buf} (hb : b ∈ s.sendQueue) :
    s.wasSent b = true ↔ b.WasSent := by
  obtain ⟨sent, retransmissions⟩ := h.marked b hb
  have len := s.length_connSends b.addr
  rw [CtcpState.wasSent, Buf.WasSent, sent, retransmissions, Bool.not_eq_true',
    List.isEmpty_eq_false_iff, ← List.length_pos_iff, len]
  omega

/-- Where the timer has sent nothing, the marker `arr[2]` of a queued segment
tells whether `conn_send` was called for it. -/
theorem SentInv.wasSent_eq {s : CtcpState} (h : SentInv env s)
    (idle : ∀ b, Event.retransmitted b ∉ s.trace) {b : Buf} (hb : b ∈ s.sendQueue) :
    s.wasSent b = decide (b.sent ≠ 0) := by
  have none : s.resends b.addr = 0 := by
    rw [CtcpState.resends, List.countP_eq_zero]
    intro e he
    cases e with
    | retransmitted c => exact (idle c he).elim
    | _ => simp [Event.resends]
  have zero : b.retransmissions = 0 := by
    rw [(h.marked b hb).retransmissions, none]
    rfl
  rw [Bool.eq_iff_iff, h.wasSent_iff hb, Buf.WasSent, zero, decide_eq_true_iff]
  exact or_iff_left (absurd rfl)

/-- The bytes in flight by the marker are those handed to `conn_send`. -/
theorem SentInv.filter_wasSent {s : CtcpState} (h : SentInv env s)
    (idle : ∀ b, Event.retransmitted b ∉ s.trace) :
    s.unacknowledgedSegments.filter s.wasSent =
      s.unacknowledgedSegments.filter fun b => b.sent ≠ 0 :=
  List.filter_congr fun _ hb => h.wasSent_eq idle (List.mem_append_left _ hb)

/-- **Sender accounting.** In every state of every run whose actions so far
were all `Accounted`, the three counters are exactly what they count. -/
theorem senderAccounting {block : Bbr} {config : CtcpConfig} {ops : List Op} {s : CtcpState}
    (h : Run (Step env) (ctcpInit env block config) ops s)
    (accounted : ∀ e ∈ s.trace, e.Accounted) : SenderAccounting s := by
  obtain ⟨inv, account⟩ : AccountedInv env s :=
    run_invariant (AccountedInv env) accountedInv_enqueue accountedInv_micro
      ⟨sentInv_init block config, fun _ => accountInv_init block config⟩ h
  obtain ⟨-, sliding, inflight, k, -, limited, sent⟩ := account accounted
  refine ⟨sliding, ?_, ?_⟩
  · rw [inv.filter_wasSent fun b hb => accounted _ hb]
    exact inflight
  · have part : (s.unacknowledgedSegments.take k).Sublist
        (s.unacknowledgedSegments.filter fun b => b.sent ≠ 0) := by
      rw [← List.filter_eq_self.mpr fun b hb => decide_eq_true (sent b hb)]
      exact (List.take_sublist k _).filter _
    rw [limited, inflight]
    exact windowBytes_le part

/-- A segment is sent and acknowledged. -/
theorem senderAccounting_sent_and_acked :
    SenderAccounting ((CtcpState.fresh (.plain .little)).applyAll (.plain .little)
      [.send ⟨[97, 98], by decide⟩ 16, .send ⟨[99], by decide⟩ 16,
        .receive ⟨1, 3, 20, thAck, 1440, 0, []⟩]) :=
  senderAccounting (run_applyAll (by decide +kernel)) (by decide +kernel)

/-- Ten bytes are sent, and the timer sends them again: the segment stays in
the window, and `sliding_window_size_bytes` says that the window is empty. -/
theorem retransmission_breaks_accounting :
    ¬ ∀ (ops : List Op) (s : CtcpState),
      Run (Step (.plain .little)) (CtcpState.fresh (.plain .little)) ops s →
        SenderAccounting s := by
  intro general
  have h := general
    [.send ⟨[97, 98, 99, 100, 101, 102, 103, 104, 105, 106], by decide⟩ 16, .timer] _
    (run_applyAll (by decide +kernel))
  revert h
  decide +kernel

/-- The condition is exact: the first action that is not `Accounted` leaves a
counter wrong at once. -/
theorem unaccounted_breaks {half : Half} {s t : CtcpState} (inv : SentInv env s)
    (account : AccountInv s) (accounted : ∀ e ∈ s.trace, e.Accounted)
    (hstep : Micro env half s t) {e : Event}
    (new : t.trace = s.trace ++ [e]) (bad : ¬ e.Accounted) : ¬ SenderAccounting t := by
  intro counted
  have sliding := counted.sliding
  have inflight := counted.inflight
  have hs := account.sliding
  have hi := account.inflight
  have pos : ∀ b ∈ s.unacknowledgedSegments, 0 < b.segment.len.toNat :=
    fun b hb => inv.len_pos (List.mem_append_left _ hb)
  have hnew : ∀ e', t.trace = s.trace ++ [e'] → e = e' := fun e' he' => by
    simpa using new.symm.trans he'
  cases hstep with
  | tune tuned =>
    obtain ⟨_, _, _, _, _, _, _, rfl⟩ := tuned
    simp at new
  | limit | recordSeqno | fin | destroy => simp [CtcpState.recordSeqno, CtcpState.destroy] at new
  | control => exact bad (hnew (.control _ _) rfl ▸ trivial)
  | transmit => exact bad (hnew (.transmitted _) rfl ▸ trivial)
  | output => exact bad (hnew (.output _) rfl ▸ trivial)
  | admitted pending room =>
    obtain rfl := hnew (.admitted _ _) rfl
    simp only [Event.Accounted, not_lt] at bad
    simp only [CtcpState.admitOne, CtcpState.log, UInt16.toNat_add, windowBytes_append,
      windowBytes_cons, windowBytes_nil] at sliding
    omega
  | @remove _ b rest queue =>
    obtain rfl := hnew (.acknowledged _) rfl
    simp only [Event.Accounted, ne_eq, not_not] at bad
    have hb := pos b (by simp [queue])
    have hlt := s.inflightData.toNat_lt
    have hlen := b.segment.len.toNat_lt
    have idle : ∀ c, Event.retransmitted c ∉ (s.removeFront b rest).trace := by
      intro c hc
      rw [new, List.mem_append, List.mem_singleton] at hc
      rcases hc with old | hc
      · exact accounted _ old
      · cases hc
    rw [(sentInv_micro inv (.remove queue)).filter_wasSent idle] at inflight
    rw [queue, List.filter_cons, if_neg (by simp [bad])] at hi
    simp only [CtcpState.removeFront, CtcpState.log, UInt32.toNat_sub,
      UInt16.toNat_toUInt32] at inflight
    omega
  | @retransmit _ visited b rest queue due =>
    have hb := pos b (by simp [queue])
    have hlt := s.slidingWindowSizeBytes.toNat_lt
    have hlen := b.segment.len.toNat_lt
    simp only [queue, windowBytes_append, windowBytes_cons] at hs
    simp only [CtcpState.retransmitOne, CtcpState.log, CtcpState.markResent, UInt16.toNat_sub,
      windowBytes_append, windowBytes_cons] at sliding
    omega

end NetLabs.Ctcp
