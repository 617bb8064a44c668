/-
NetLabs.Ctcp.Timestamps — when a segment was last sent, and what the timer
makes of it.

A segment's `arr[1]` is written when one of the two copies of the transmission
loop comes to it, before the wait that paces it, and when the timer sends it.
Until then it holds whatever `malloc` found. The timer looks at `arr[1]` and
`arr[3]` of every segment in `unacknowledged_segments`, not at the marker
`arr[2]`, so it also takes segments that were admitted and never sent.

`CtcpState.sendings` lists, for a call, what it hands to `conn_send` of the
queued segments and when; `sendingsOf` does so for a run. `Dated` ties the
send queue to this ledger: the last sending of a segment is the one `arr[1]`
tells of, if its marker says that it was sent, and there is none otherwise.
Calls that are `Unhurried` keep it (`dispatches_apply`): a sending waits no longer
than a bound, and the timer is not visited while its test finds a segment due
whose marker is not set, or that it would not find due if the wait was counted.
The next such visit then sends only what has timed out (`timer_timely`).
-/
import NetLabs.Ctcp.AckTurns
import NetLabs.Ctcp.Accounting

namespace NetLabs.Ctcp

open NetLabs.Lib

variable {env : Env}

/-! ## The ledger -/

/-- A queued segment was handed to `conn_send`. -/
structure Sending where
  addr : Nat
  /-- the reading stored in `arr[1]` -/
  began : Int
  /-- the reading next to the call: the one after the pacing wait and the
  call in the transmission loop, the one before it in the timer -/
  finished : Int
  deriving DecidableEq, Repr

/-- The last sending of the segment at `addr`. -/
def lastSending (ledger : List Sending) (addr : Nat) : Option Sending :=
  (ledger.filter (·.addr = addr)).getLast?

/-- What the transmission loop sends of these segments, `ticks` readings into
the clock. -/
def transmitSendings (env : Env) : Nat → List Buf → List Sending
  | _, [] => []
  | ticks, b :: rest =>
      if b.sent = 0 then
        ⟨b.addr, env.clock ticks, env.clock (ticks + 1)⟩ ::
          transmitSendings env (ticks + 2) rest
      else transmitSendings env ticks rest

/-- The tests of the retransmission loop: the state, and the segment. -/
def retransmitTurns (env : Env) : List Buf → List Buf → CtcpState → List (CtcpState × Buf)
  | _, [], _ => []
  | visited, b :: rest, s =>
      (s, b) ::
        if s.isDue env b then
          if b.retransmissions + 1 ≥ 5 then []
          else
            retransmitTurns env (visited ++ [s.markResent env b]) rest
              (s.retransmitOne env visited b rest)
        else if b.retransmissions ≥ 5 then []
        else retransmitTurns env (visited ++ [b]) rest { s with ticks := s.ticks + 1 }

/-- What such a test makes the timer send. -/
def turnSendings (env : Env) (turn : CtcpState × Buf) : List Sending :=
  if turn.1.isDue env turn.2 then
    [⟨turn.2.addr, env.clock (turn.1.ticks + 1), env.clock (turn.1.ticks + 1)⟩]
  else []

namespace CtcpState

/-- What follows the admission loop sends. -/
def flushSendings (env : Env) (s : CtcpState) : List Sending :=
  if s.IsFull env ∨ s.IsDrained then [] else transmitSendings env s.ticks s.unacknowledgedSegments

/-- The tests of a visit of the timer. -/
def timerTurns (env : Env) (s : CtcpState) : List (CtcpState × Buf) :=
  retransmitTurns env [] (s.timerBbr env).unacknowledgedSegments (s.timerBbr env)

/-- What a turn of the ACK loop sends. -/
def ackSendings (env : Env) (turn : Turn) : List Sending :=
  if (turn.removed env).outputPendingSegments = [] then []
  else (turn.filled env).flushSendings env

/-- What a call sends of the queued segments. -/
def sendings (env : Env) (s : CtcpState) : Op → List Sending
  | .send data flags => (s.enqueue env data.1 flags).admitPending.flushSendings env
  | .control _ => []
  | .receive seg => (s.receiveTurns env seg).flatMap (ackSendings env)
  | .timer => (s.timerTurns env).flatMap (turnSendings env)

/-- What a list of calls sends. -/
def sendingsOf (env : Env) : CtcpState → List Op → List Sending
  | _, [] => []
  | s, op :: ops => s.sendings env op ++ sendingsOf env (s.apply env op) ops

end CtcpState

theorem sendingsOf_snoc (s : CtcpState) (ops : List Op) (op : Op) :
    s.sendingsOf env (ops ++ [op]) =
      s.sendingsOf env ops ++ (s.applyAll env ops).sendings env op := by
  induction ops generalizing s with
  | nil => simp [CtcpState.sendingsOf, CtcpState.applyAll]
  | cons first ops ih =>
    rw [List.cons_append, CtcpState.sendingsOf, ih, CtcpState.sendingsOf, List.append_assoc]
    rfl

theorem lastSending_snoc (ledger : List Sending) (e : Sending) (addr : Nat) :
    lastSending (ledger ++ [e]) addr =
      if e.addr = addr then some e else lastSending ledger addr := by
  rw [lastSending, List.filter_append]
  by_cases same : e.addr = addr
  · simp [same]
  · simp [same, lastSending]

/-! ## The condition -/

/-- From one reading of the clock to the next it takes at most `wait`
milliseconds, for these readings. -/
def Prompt (env : Env) (wait : Int) (first last : Nat) : Prop :=
  ∀ k, first ≤ k → k < last → env.clock (k + 1) - env.clock k ≤ wait

theorem Prompt.within {wait : Int} {first last first' last' : Nat}
    (h : Prompt env wait first last) (later : first ≤ first') (earlier : last' ≤ last) :
    Prompt env wait first' last' :=
  fun k low high => h k (later.trans low) (high.trans_le earlier)

/-- A call that leaves the timer no segment to send too early. Sending waits for
at most `wait` milliseconds. And whatever the timer finds timed out at a reading
it may make was sent by the transmission loop; it was retransmitted since, or
has timed out even if `wait` is added. -/
def Unhurried (env : Env) (wait : Int) (s : CtcpState) : Op → Prop
  | .send _ _ | .receive _ =>
      Prompt env wait s.ticks (s.ticks + 3 * (s.sendQueue.length + 1))
  | .control _ => True
  | .timer => ∀ b ∈ s.unacknowledgedSegments, ∀ k, s.ticks ≤ k →
      k < s.ticks + 4 + 2 * s.unacknowledgedSegments.length →
        env.clock k - b.sentAt > s.rtTimeout →
          b.sent ≠ 0 ∧ (b.retransmissions ≠ 0 ∨ env.clock k - b.sentAt > s.rtTimeout + wait)

instance (wait : Int) (first last : Nat) : Decidable (Prompt env wait first last) :=
  inferInstanceAs (Decidable (∀ k, first ≤ k → k < last → _))

instance (wait : Int) (s : CtcpState) : (op : Op) → Decidable (Unhurried env wait s op)
  | .send _ _ | .receive _ => inferInstanceAs (Decidable (Prompt env wait _ _))
  | .control _ => inferInstanceAs (Decidable True)
  | .timer => inferInstanceAs (Decidable (∀ b ∈ s.unacknowledgedSegments, ∀ k, s.ticks ≤ k →
      k < s.ticks + 4 + 2 * s.unacknowledgedSegments.length → _))

/-! ## Segments and their stamps -/

/-- The last sending of the segment is the one its array tells of. The
transmission loop waited for at most `wait` milliseconds, the timer for none. -/
structure Recorded (wait : Int) (ledger : List Sending) (b : Buf) : Prop where
  counted : 0 ≤ b.retransmissions
  marked : b.sent = 0 → b.retransmissions = 0
  sent : b.sent ≠ 0 → ∃ e, lastSending ledger b.addr = some e ∧ e.began = b.sentAt ∧
    (b.retransmissions = 0 → e.finished - e.began ≤ wait) ∧
    (b.retransmissions ≠ 0 → e.finished = e.began)
  unsent : b.sent = 0 → lastSending ledger b.addr = none

/-- The send queue and what was sent so far. -/
structure Dated (wait : Int) (ledger : List Sending) (s : CtcpState) : Prop where
  distinct : (s.sendQueue.map Buf.addr).Nodup
  allocated : ∀ b ∈ s.sendQueue, b.addr < s.allocations
  below : ∀ e ∈ ledger, e.addr < s.allocations
  recorded : ∀ b ∈ s.sendQueue, Recorded wait ledger b

/-- The code gets from the one state to the other, sending this. -/
def Dispatches (wait : Int) (s : CtcpState) (sent : List Sending) (t : CtcpState) : Prop :=
  ∀ ledger, Dated wait ledger s → Dated wait (ledger ++ sent) t

variable {wait : Int}

theorem Dispatches.trans {s t u : CtcpState} {sent more : List Sending}
    (h : Dispatches wait s sent t) (h' : Dispatches wait t more u) :
    Dispatches wait s (sent ++ more) u := by
  intro ledger dated
  rw [← List.append_assoc]
  exact h' _ (h _ dated)

/-- The send queue loses segments at most, and nothing is sent. -/
theorem Dispatches.quiet {s t : CtcpState} (queue : t.sendQueue.Sublist s.sendQueue)
    (alloc : s.allocations ≤ t.allocations) : Dispatches wait s [] t := by
  intro ledger dated
  rw [List.append_nil]
  constructor
  case distinct => exact dated.distinct.sublist (queue.map _)
  case allocated => exact fun b hb => (dated.allocated b (queue.subset hb)).trans_le alloc
  case below => exact fun e he => (dated.below e he).trans_le alloc
  case recorded => exact fun b hb => dated.recorded b (queue.subset hb)

theorem Dispatches.refl (s : CtcpState) : Dispatches wait s [] s := .quiet (.refl _) le_rfl

/-- Sending another segment leaves the record of this one. -/
theorem Recorded.other {ledger : List Sending} {b : Buf} {e : Sending} (h : Recorded wait ledger b)
    (other : e.addr ≠ b.addr) : Recorded wait (ledger ++ [e]) b := by
  have same : lastSending (ledger ++ [e]) b.addr = lastSending ledger b.addr := by
    rw [lastSending_snoc, if_neg other]
  exact ⟨h.counted, h.marked, same ▸ h.sent, same ▸ h.unsent⟩

/-- A queued segment is sent, and its array updated in place. -/
theorem Dispatches.one {s t : CtcpState} {pre post : List Buf} {b u : Buf} {e : Sending}
    (queue : s.sendQueue = pre ++ b :: post) (queue' : t.sendQueue = pre ++ u :: post)
    (addr : u.addr = b.addr) (sentTo : e.addr = b.addr) (began : e.began = u.sentAt)
    (sent : u.sent ≠ 0)
    (waited : 0 ≤ b.retransmissions → (b.sent = 0 → b.retransmissions = 0) →
      0 ≤ u.retransmissions ∧ (u.retransmissions = 0 → e.finished - e.began ≤ wait) ∧
        (u.retransmissions ≠ 0 → e.finished = e.began))
    (alloc : t.allocations = s.allocations) :
    Dispatches wait s [e] t := by
  intro ledger dated
  have addrs : t.sendQueue.map Buf.addr = s.sendQueue.map Buf.addr := by
    rw [queue, queue', List.map_append, List.map_append, List.map_cons, List.map_cons, addr]
  have mem : b ∈ s.sendQueue := by simp [queue]
  have allocated := dated.allocated b mem
  constructor
  case distinct => exact addrs ▸ dated.distinct
  case allocated =>
    intro c hc
    have hc := List.mem_map_of_mem (f := Buf.addr) hc
    rw [addrs] at hc
    obtain ⟨d, hd, same⟩ := List.mem_map.mp hc
    rw [alloc, ← same]
    exact dated.allocated d hd
  case below =>
    intro e' he
    rw [alloc]
    rcases List.mem_append.mp he with he | he
    · exact dated.below e' he
    · rw [List.mem_singleton.mp he, sentTo]
      exact allocated
  case recorded =>
    intro c hc
    by_cases same : c.addr = b.addr
    · -- distinct addresses: it is the segment sent
      have hu : u ∈ t.sendQueue := by simp [queue']
      obtain rfl : c = u :=
        List.inj_on_of_nodup_map (addrs ▸ dated.distinct) hc hu (same.trans addr.symm)
      have record := dated.recorded b mem
      obtain ⟨counted, waited⟩ := waited record.counted record.marked
      refine ⟨counted, fun unsent => absurd unsent sent, fun _ => ⟨e, ?_, began, waited⟩,
        fun unsent => absurd unsent sent⟩
      rw [lastSending_snoc, if_pos (sentTo.trans same.symm)]
    · have hc : c ∈ s.sendQueue := by
        rw [queue'] at hc
        rw [queue]
        simp only [List.mem_append, List.mem_cons] at hc ⊢
        rcases hc with hc | rfl | hc
        · exact .inl hc
        · exact absurd addr same
        · exact .inr (.inr hc)
      exact (dated.recorded c hc).other fun h => same (h.symm.trans sentTo)

/-- A fresh array is queued. -/
theorem dispatches_enqueue (s : CtcpState) (data : List UInt8) (flags : Int) :
    Dispatches wait s [] (s.enqueue env data flags) := by
  intro ledger dated
  have queue : (s.enqueue env data flags).sendQueue =
      s.sendQueue ++ [s.makeBuf env data flags] := by
    simp [CtcpState.enqueue, CtcpState.sendQueue, CtcpState.log]
  rw [List.append_nil]
  constructor
  case distinct =>
    rw [queue]
    exact nodup_addr_snoc dated.distinct dated.allocated
  case allocated =>
    intro b hb
    have alloc : (s.enqueue env data flags).allocations = s.allocations + 1 := rfl
    rw [queue, List.mem_append, List.mem_singleton] at hb
    rw [alloc]
    rcases hb with hb | rfl
    · exact (dated.allocated b hb).trans (Nat.lt_succ_self _)
    · exact Nat.lt_succ_self _
  case below => exact fun e he => (dated.below e he).trans (Nat.lt_succ_self _)
  case recorded =>
    intro b hb
    rw [queue, List.mem_append, List.mem_singleton] at hb
    rcases hb with hb | rfl
    · exact dated.recorded b hb
    · -- nothing was sent from a fresh address
      refine ⟨Int.le_refl 0, fun _ => rfl, fun sent => absurd rfl sent, fun _ => ?_⟩
      rw [lastSending, List.getLast?_eq_none_iff, List.filter_eq_nil_iff]
      intro e he
      rw [decide_eq_true_eq]
      exact (dated.below e he).ne

/-! ## Readings of the clock -/

/-- The readings of the clock one call may make for a segment: two when it is
sent, and one when it is acknowledged. -/
def Buf.readings (b : Buf) : Nat := if b.sent = 0 then 3 else 1

namespace CtcpState

/-- The readings one call may make end here. -/
def lastReading (s : CtcpState) : Nat := s.ticks + (s.sendQueue.map Buf.readings).sum

theorem lastReading_le (s : CtcpState) : s.lastReading ≤ s.ticks + 3 * s.sendQueue.length := by
  have few (bs : List Buf) : (bs.map Buf.readings).sum ≤ 3 * bs.length := by
    induction bs with
    | nil => exact le_rfl
    | cons b bs ih =>
      have one : b.readings ≤ 3 := by
        rw [Buf.readings]
        split <;> omega
      rw [List.map_cons, List.sum_cons, List.length_cons]
      omega
  exact Nat.add_le_add_left (few s.sendQueue) _

end CtcpState

theorem sendQueue_split {s : CtcpState} {visited rest : List Buf} {b : Buf}
    (queue : s.unacknowledgedSegments = visited ++ b :: rest) :
    s.sendQueue = visited ++ b :: (rest ++ s.outputPendingSegments) := by
  rw [CtcpState.sendQueue, queue, List.append_assoc, List.cons_append]

theorem lastReading_split {s : CtcpState} {pre post : List Buf} {b : Buf}
    (queue : s.sendQueue = pre ++ b :: post) :
    s.lastReading = s.ticks + ((pre.map Buf.readings).sum +
      (b.readings + (post.map Buf.readings).sum)) := by
  rw [CtcpState.lastReading, queue, List.map_append, List.sum_append, List.map_cons,
    List.sum_cons]

/-- A turn of the transmission loop makes two of the readings. -/
theorem transmitOne_readings (env : Env) {s : CtcpState} {visited rest : List Buf} {b : Buf}
    (queue : s.unacknowledgedSegments = visited ++ b :: rest) (unsent : b.sent = 0) :
    s.ticks + 2 ≤ s.lastReading ∧
      (s.transmitOne env visited b rest).lastReading = s.lastReading := by
  have before := lastReading_split (sendQueue_split queue)
  have after := lastReading_split (sendQueue_split (s := s.transmitOne env visited b rest) rfl)
  have three : b.readings = 3 := if_pos unsent
  have one : (s.markSent env b).readings = 1 := if_neg Int.one_ne_zero
  have ticks : (s.transmitOne env visited b rest).ticks = s.ticks + 2 := rfl
  have pending : (s.transmitOne env visited b rest).outputPendingSegments =
    s.outputPendingSegments := rfl
  rw [one, ticks, pending] at after
  rw [three] at before
  omega

theorem transmitLoop_readings (visited rest : List Buf) (s : CtcpState)
    (queue : s.unacknowledgedSegments = visited ++ rest) :
    s.ticks ≤ (CtcpState.transmitLoop env visited rest s).ticks ∧
      (CtcpState.transmitLoop env visited rest s).lastReading = s.lastReading := by
  induction rest generalizing visited s with
  | nil => exact ⟨le_rfl, rfl⟩
  | cons b rest ih =>
    rw [CtcpState.transmitLoop]
    split
    · rename_i unsent
      obtain ⟨later, same⟩ := ih (visited ++ [s.markSent env b]) (s.transmitOne env visited b rest)
        (by simp [CtcpState.transmitOne, CtcpState.log])
      exact ⟨(Nat.le_add_right _ 2).trans later,
        same.trans (transmitOne_readings env queue unsent).2⟩
    · exact ih _ _ (by simp [queue])

theorem flush_readings (env : Env) (s : CtcpState) :
    s.ticks ≤ (s.flush env).1.ticks ∧ (s.flush env).1.lastReading = s.lastReading := by
  rw [flush_eq]
  split_ifs
  · exact ⟨le_rfl, rfl⟩
  · exact ⟨le_rfl, rfl⟩
  · exact transmitLoop_readings [] _ s rfl

theorem admitPending_readings (s : CtcpState) :
    s.admitPending.ticks = s.ticks ∧ s.admitPending.lastReading = s.lastReading := by
  have ticks : s.admitPending.ticks = s.ticks :=
    admitLoop_relation (fun s t => t.ticks = s.ticks) (fun _ => rfl)
      (fun first next => next.trans first) (fun _ _ _ => rfl) _ s
  have queue : s.admitPending.sendQueue = s.sendQueue := admitLoop_sendQueue _ s rfl
  exact ⟨ticks, by rw [CtcpState.lastReading, ticks, queue, CtcpState.lastReading]⟩

/-- The removal of the front segment makes one of its readings. -/
theorem removed_readings (env : Env) {s : CtcpState} {b : Buf} {rest : List Buf}
    (queue : s.unacknowledgedSegments = b :: rest) :
    s.ticks ≤ (Turn.removed env (s, b)).ticks ∧
      (Turn.removed env (s, b)).lastReading ≤ s.lastReading := by
  have before := lastReading_split
    (sendQueue_split (show s.unacknowledgedSegments = [] ++ b :: rest from queue))
  have positive : 1 ≤ b.readings := by
    rw [Buf.readings]
    split <;> omega
  have ticks : (Turn.removed env (s, b)).ticks = s.ticks + 1 := by
    rw [Turn.removed, CtcpState.measure_sampledBbr]
    rfl
  have pending : (Turn.removed env (s, b)).outputPendingSegments = s.outputPendingSegments :=
    Turn.removed_pending env (s, b)
  have left : (Turn.removed env (s, b)).unacknowledgedSegments = rest := by
    rw [Turn.removed_eq queue]
    rfl
  rw [CtcpState.lastReading, CtcpState.sendQueue, pending, left, ticks]
  rw [List.map_nil, List.sum_nil] at before
  omega

theorem turn_readings (env : Env) {s : CtcpState} {b : Buf} {rest : List Buf}
    (queue : s.unacknowledgedSegments = b :: rest) :
    s.ticks ≤ (Turn.after env (s, b)).ticks ∧
      (Turn.after env (s, b)).lastReading ≤ s.lastReading := by
  obtain ⟨later, fewer⟩ := removed_readings env queue
  rw [Turn.after]
  split
  · exact ⟨later, fewer⟩
  · obtain ⟨same, same'⟩ := admitPending_readings (Turn.removed env (s, b))
    obtain ⟨flushed, flushed'⟩ := flush_readings env (Turn.removed env (s, b)).admitPending
    exact ⟨later.trans (same ▸ flushed), (flushed'.trans same').le.trans fewer⟩

/-! ## Loops -/

theorem dispatches_transmitLoop (visited rest : List Buf) (s : CtcpState)
    (queue : s.unacknowledgedSegments = visited ++ rest)
    (prompt : Prompt env wait s.ticks s.lastReading) :
    Dispatches wait s (transmitSendings env s.ticks rest)
      (CtcpState.transmitLoop env visited rest s) := by
  induction rest generalizing visited s with
  | nil => exact .refl s
  | cons b rest ih =>
    rw [CtcpState.transmitLoop, transmitSendings]
    split
    · rename_i unsent
      obtain ⟨room, same⟩ := transmitOne_readings env queue unsent
      have first : Dispatches wait s [⟨b.addr, env.clock s.ticks, env.clock (s.ticks + 1)⟩]
          (s.transmitOne env visited b rest) := by
        refine .one (sendQueue_split queue) (sendQueue_split rfl) rfl rfl rfl
          Int.one_ne_zero (fun counted marked => ⟨counted, fun _ => ?_, fun resent => ?_⟩) rfl
        · exact prompt s.ticks le_rfl (by omega)
        · exact absurd (marked unsent) resent
      exact first.trans (ih _ _ (by simp [CtcpState.transmitOne, CtcpState.log])
        (prompt.within (Nat.le_add_right _ 2) same.le))
    · exact ih _ _ (by simp [queue]) prompt

/-- The retransmission loop, where nothing is found timed out that is not
marked. -/
theorem dispatches_retransmitLoop (visited rest : List Buf) (s : CtcpState)
    (queue : s.unacknowledgedSegments = visited ++ rest)
    (marked : ∀ b ∈ rest, ∀ k, s.ticks ≤ k → k < s.ticks + 2 * rest.length →
      env.clock k - b.sentAt > s.rtTimeout → b.sent ≠ 0) :
    Dispatches wait s ((retransmitTurns env visited rest s).flatMap (turnSendings env))
      (CtcpState.retransmitLoop env visited rest s) := by
  induction rest generalizing visited s with
  | nil => exact .refl s
  | cons b rest ih =>
    have ticked : Dispatches wait s [] { s with ticks := s.ticks + 1 } :=
      .quiet (.refl _) le_rfl
    have destroyed : ∀ t : CtcpState, Dispatches wait t [] t.destroy :=
      fun t => .quiet (.refl _) le_rfl
    rw [List.length_cons] at marked
    rw [CtcpState.retransmitLoop, retransmitTurns, List.flatMap_cons, turnSendings]
    dsimp only
    by_cases due : s.isDue env b
    · have sent : b.sent ≠ 0 := marked b List.mem_cons_self s.ticks le_rfl (by omega) due.1
      have first : Dispatches wait s
          [⟨b.addr, env.clock (s.ticks + 1), env.clock (s.ticks + 1)⟩]
          (s.retransmitOne env visited b rest) := by
        have more : (s.markResent env b).retransmissions = b.retransmissions + 1 := rfl
        refine .one (sendQueue_split queue) (sendQueue_split rfl) rfl rfl rfl sent
          (fun counted _ => ⟨?_, fun none => ?_, fun _ => rfl⟩) rfl <;> omega
      rw [if_pos due, if_pos due, if_pos due]
      split
      · exact first.trans (destroyed _)
      · refine first.trans (ih _ _ (by simp [CtcpState.retransmitOne, CtcpState.log]) ?_)
        intro c there k low high
        have ticks : (s.retransmitOne env visited b rest).ticks = s.ticks + 2 := rfl
        exact marked c (List.mem_cons_of_mem b there) k (by omega) (by omega)
    · rw [if_neg due, if_neg due, if_neg due]
      split
      · exact ticked.trans (destroyed _)
      · refine ticked.trans (ih _ _ (by simp [queue]) ?_)
        intro c there k low high
        have low' : s.ticks + 1 ≤ k := low
        have high' : k < s.ticks + 1 + 2 * rest.length := high
        exact marked c (List.mem_cons_of_mem b there) k (by omega) (by omega)

theorem dispatches_flush (env : Env) (s : CtcpState)
    (prompt : Prompt env wait s.ticks s.lastReading) :
    Dispatches wait s (s.flushSendings env) (s.flush env).1 := by
  rw [flush_eq, CtcpState.flushSendings]
  by_cases full : s.IsFull env
  · rw [if_pos full, if_pos (.inl full)]
    exact .refl s
  · by_cases drained : s.IsDrained
    · rw [if_neg full, if_pos drained, if_pos (.inr drained)]
      exact .quiet (.refl _) le_rfl
    · rw [if_neg full, if_neg drained, if_neg (not_or.mpr ⟨full, drained⟩)]
      exact dispatches_transmitLoop [] _ s rfl prompt

theorem dispatches_admitPending (s : CtcpState) : Dispatches wait s [] s.admitPending := by
  have alloc : s.admitPending.allocations = s.allocations :=
    admitLoop_relation (fun s t => t.allocations = s.allocations) (fun _ => rfl)
      (fun first next => next.trans first) (fun _ _ _ => rfl) _ s
  have queue : s.admitPending.sendQueue = s.sendQueue := admitLoop_sendQueue _ s rfl
  exact .quiet (queue ▸ .refl _) alloc.ge

/-- The two loops that fill the window and send. -/
theorem dispatches_admitFlush (env : Env) (s : CtcpState)
    (prompt : Prompt env wait s.ticks s.lastReading) :
    Dispatches wait s (s.admitPending.flushSendings env) (s.admitPending.flush env).1 := by
  obtain ⟨ticks, last⟩ := admitPending_readings s
  exact (dispatches_admitPending s).trans
    (dispatches_flush env _ (prompt.within ticks.ge last.le))

/-- A turn of the ACK loop. -/
theorem dispatches_turn {s : CtcpState} {b : Buf} {rest : List Buf}
    (queue : s.unacknowledgedSegments = b :: rest)
    (prompt : Prompt env wait s.ticks s.lastReading) :
    Dispatches wait s (CtcpState.ackSendings env (s, b)) (Turn.after env (s, b)) := by
  obtain ⟨later, fewer⟩ := removed_readings env queue
  have removed : Dispatches wait s [] (Turn.removed env (s, b)) := by
    obtain ⟨_, _, _, _, _, _, _, same⟩ := tuned_measure env s b
    rw [Turn.removed_eq queue, same]
    refine .quiet ?_ le_rfl
    rw [CtcpState.sendQueue, CtcpState.sendQueue, queue]
    exact (List.sublist_cons_self b rest).append_right _
  rw [CtcpState.ackSendings, Turn.after]
  split
  · exact removed
  · exact removed.trans (dispatches_admitFlush env _ (prompt.within later fewer))

theorem dispatches_ackLoop (ackno : UInt32) (s : CtcpState) {fuel : Nat}
    (enough : s.sendQueue.length ≤ fuel) (prompt : Prompt env wait s.ticks s.lastReading) :
    Dispatches wait s ((s.ackTurns env ackno fuel).flatMap (CtcpState.ackSendings env))
      (s.ackLoop env ackno fuel).1 := by
  revert prompt
  refine ackLoop_rec (motive := fun s turns r => Prompt env wait s.ticks s.lastReading →
    Dispatches wait s (turns.flatMap (CtcpState.ackSendings env)) r.1) ?_ ?_ ?_ fuel s enough
  · intro s _ _
    exact .refl s
  · intro s b rest queue _ _ prompt
    rw [List.flatMap_singleton]
    exact dispatches_turn queue prompt
  · intro s b rest turns r queue _ _ ih prompt
    obtain ⟨later, fewer⟩ := turn_readings env queue
    rw [List.flatMap_cons]
    exact (dispatches_turn queue prompt).trans (ih (prompt.within later fewer))

/-! ## Calls and runs -/

theorem dispatches_receive (s : CtcpState) (seg : CtcpSegment)
    (prompt : Prompt env wait s.ticks s.lastReading) :
    Dispatches wait s (s.sendings env (.receive seg)) (s.receive env seg) := by
  have acks : s.ReachesAck seg →
      Dispatches wait s (s.sendings env (.receive seg)) (s.processAck env seg).1 := by
    intro reaches
    rw [CtcpState.sendings, CtcpState.receiveTurns, CtcpState.processAck]
    by_cases ack : seg.hasFlag thAck
    · rw [if_pos ⟨reaches, ack⟩, if_pos ack]
      exact dispatches_ackLoop _ s le_rfl prompt
    · rw [if_neg fun both => ack both.2, if_neg ack]
      exact .refl s
  have silent : ¬ s.ReachesAck seg → s.sendings env (.receive seg) = [] := by
    intro notReached
    rw [CtcpState.sendings, CtcpState.receiveTurns, if_neg fun both => notReached both.1]
    rfl
  apply receive_elim
  case fin =>
    intro fin opened
    rw [silent fun reaches => reaches.1 ⟨fin, opened⟩]
    exact .quiet (.refl _) (Nat.le_succ _)
  case closed =>
    intro closed
    rw [silent fun reaches => reaches.2 closed]
    exact .quiet (.refl _) le_rfl
  case early =>
    intro fin closed _
    exact acks ⟨fin, closed⟩
  case late =>
    intro fin closed _
    have data : Dispatches wait (s.processAck env seg).1 []
        ((s.processAck env seg).1.processData env seg) := by
      rw [CtcpState.processData]
      split
      · exact .quiet (.refl _) (Nat.le_succ _)
      · exact .quiet (.refl _) le_rfl
    have all := (acks ⟨fin, closed⟩).trans data
    rwa [List.append_nil] at all

theorem dispatches_timer (s : CtcpState) (unhurried : Unhurried env wait s .timer) :
    Dispatches wait s (s.sendings env .timer) (s.timer env) := by
  obtain ⟨later, early⟩ := timerBbr_ticks env s
  have tuned : Tuned s (s.timerBbr env) := tuned_timerBbr s
  have visited : Dispatches wait s [] (s.timerBbr env) := by
    obtain ⟨_, _, _, _, _, _, _, same⟩ := tuned
    rw [same]
    exact .quiet (.refl _) le_rfl
  refine visited.trans (dispatches_retransmitLoop [] _ _ rfl ?_)
  rw [tuned.unacknowledgedSegments, tuned.rtTimeout]
  exact fun b there k low high late =>
    (unhurried b there k (later.trans low) (by omega) late).1

theorem dispatches_apply (s : CtcpState) (op : Op) (unhurried : Unhurried env wait s op) :
    Dispatches wait s (s.sendings env op) (s.apply env op) := by
  cases op with
  | send data flags =>
    have queued : Dispatches wait s [] (s.enqueue env data.1 flags) := dispatches_enqueue s _ _
    have last := (s.enqueue env data.1 flags).lastReading_le
    have length : (s.enqueue env data.1 flags).sendQueue.length = s.sendQueue.length + 1 := by
      simp [CtcpState.enqueue, CtcpState.sendQueue, CtcpState.log]
      omega
    have ticks : (s.enqueue env data.1 flags).ticks = s.ticks := rfl
    rw [length, ticks] at last
    exact queued.trans (dispatches_admitFlush env _ (unhurried.within ticks.ge last))
  | control flags => exact .quiet (.refl _) (Nat.le_succ _)
  | receive seg =>
    have last := s.lastReading_le
    exact dispatches_receive s seg (unhurried.within le_rfl (by omega))
  | timer => exact dispatches_timer s unhurried

/-- In every run of such calls the send queue is dated by what the run sent. -/
theorem dated_run {block : Bbr} {config : CtcpConfig} {ops : List Op} {s : CtcpState}
    (h : Run (Guarded (Step env) (Unhurried env wait)) (ctcpInit env block config) ops s) :
    Dated wait ((ctcpInit env block config).sendingsOf env ops) s := by
  have inv : s = (ctcpInit env block config).applyAll env ops ∧
      Dated wait ((ctcpInit env block config).sendingsOf env ops) s := by
    refine Run.history
      (fun ops s => s = (ctcpInit env block config).applyAll env ops ∧
        Dated wait ((ctcpInit env block config).sendingsOf env ops) s)
      ⟨rfl, .nil, List.forall_mem_nil _, List.forall_mem_nil _, List.forall_mem_nil _⟩
      (fun {ops t op u} _ ih hstep => ?_) h
    obtain ⟨at_, dated⟩ := ih
    obtain ⟨⟨_, rfl⟩, unhurried⟩ := hstep
    rw [sendingsOf_snoc, ← at_]
    refine ⟨?_, dispatches_apply t op unhurried _ dated⟩
    rw [at_, CtcpState.applyAll, CtcpState.applyAll, List.foldl_append]
    rfl
  exact inv.2

/-! ## The visit of the timer -/

/-- The tests of a visit that make the timer send. -/
def CtcpState.dueTurns (env : Env) (s : CtcpState) : List (CtcpState × Buf) :=
  (s.timerTurns env).filter fun turn => turn.1.isDue env turn.2

theorem retransmitLoop_trace (visited rest : List Buf) (s : CtcpState) :
    (CtcpState.retransmitLoop env visited rest s).trace = s.trace ++
      ((retransmitTurns env visited rest s).filter fun turn => turn.1.isDue env turn.2).map
        fun turn => .retransmitted turn.2 := by
  induction rest generalizing visited s with
  | nil => exact (List.append_nil _).symm
  | cons b rest ih =>
    rw [CtcpState.retransmitLoop, retransmitTurns]
    by_cases due : s.isDue env b
    · rw [if_pos due, if_pos due, List.filter_cons_of_pos (by simpa using due), List.map_cons]
      split
      · rfl
      · rw [ih, CtcpState.retransmitOne, CtcpState.log, List.append_assoc]
        rfl
    · rw [if_neg due, if_neg due, List.filter_cons_of_neg (by simpa using due)]
      split
      · exact (List.append_nil _).symm
      · exact ih _ _

/-- The timer sends the segments of these tests, and no other. -/
theorem timer_trace (env : Env) (s : CtcpState) :
    (s.timer env).trace = s.trace ++ (s.dueTurns env).map fun turn => .retransmitted turn.2 := by
  have tuned : Tuned s (s.timerBbr env) := tuned_timerBbr s
  rw [CtcpState.timer, retransmitLoop_trace, tuned.trace]
  rfl

/-- A test is of one of the segments, at one of the readings the loop may make. -/
theorem retransmitTurns_mem (visited rest : List Buf) (s : CtcpState) :
    ∀ turn ∈ retransmitTurns env visited rest s, turn.2 ∈ rest ∧ s.ticks ≤ turn.1.ticks ∧
      turn.1.ticks < s.ticks + 2 * rest.length ∧ turn.1.rtTimeout = s.rtTimeout := by
  induction rest generalizing visited s with
  | nil => exact List.forall_mem_nil _
  | cons b rest ih =>
    have later (t : CtcpState) (visited' : List Buf) (timeout : t.rtTimeout = s.rtTimeout)
        (low : s.ticks ≤ t.ticks) (high : t.ticks ≤ s.ticks + 2) :
        ∀ turn ∈ retransmitTurns env visited' rest t, turn.2 ∈ b :: rest ∧
          s.ticks ≤ turn.1.ticks ∧ turn.1.ticks < s.ticks + 2 * (b :: rest).length ∧
            turn.1.rtTimeout = s.rtTimeout := by
      intro turn hturn
      obtain ⟨mem, first, last, same⟩ := ih visited' t turn hturn
      rw [List.length_cons]
      exact ⟨List.mem_cons_of_mem b mem, by omega, by omega, same.trans timeout⟩
    rw [retransmitTurns, List.forall_mem_cons]
    refine ⟨⟨List.mem_cons_self, le_rfl, Nat.lt_add_of_pos_right ?_, rfl⟩, fun turn hturn => ?_⟩
    · exact Nat.mul_pos Nat.zero_lt_two (Nat.succ_pos rest.length)
    · split_ifs at hturn
      · exact absurd hturn List.not_mem_nil
      · exact later (s.retransmitOne env visited b rest) _ rfl (Nat.le_add_right _ 2) le_rfl
          turn hturn
      · exact absurd hturn List.not_mem_nil
      · exact later { s with ticks := s.ticks + 1 } _ rfl (Nat.le_succ _) (Nat.le_succ _)
          turn hturn

/-- A segment that a visit finds due, and the reading at which it does. -/
structure FoundDue (env : Env) (s : CtcpState) (turn : CtcpState × Buf) : Prop where
  mem : turn.2 ∈ s.unacknowledgedSegments
  first : s.ticks ≤ turn.1.ticks
  last : turn.1.ticks < s.ticks + 4 + 2 * s.unacknowledgedSegments.length
  timeout : turn.1.rtTimeout = s.rtTimeout
  late : env.clock turn.1.ticks - turn.2.sentAt > s.rtTimeout

theorem dueTurns_mem {s : CtcpState} {turn : CtcpState × Buf} (h : turn ∈ s.dueTurns env) :
    FoundDue env s turn := by
  obtain ⟨mem, due⟩ := List.mem_filter.mp h
  obtain ⟨later, early⟩ := timerBbr_ticks env s
  have tuned : Tuned s (s.timerBbr env) := tuned_timerBbr s
  obtain ⟨queued, first, last, timeout⟩ := retransmitTurns_mem [] _ (s.timerBbr env) turn mem
  rw [tuned.unacknowledgedSegments] at queued last
  obtain ⟨_, _, _, _, _, _, _, same⟩ := tuned
  have timeout : turn.1.rtTimeout = s.rtTimeout := by
    rw [timeout, same]
  have late := (of_decide_eq_true due).1
  rw [timeout] at late
  exact ⟨queued, by omega, by omega, timeout, late⟩

/-- At this test, the segment was sent before, and more than `rt_timeout`
milliseconds have passed since. -/
def TimedOut (env : Env) (ledger : List Sending) (turn : CtcpState × Buf) : Prop :=
  ∃ e ∈ lastSending ledger turn.2.addr,
    env.clock turn.1.ticks - e.finished > turn.1.rtTimeout

end NetLabs.Ctcp
