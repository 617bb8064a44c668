/-
NetLabs.Router.LifeCycle — the life of an ARP request.

A request is made by the first packet that waits for its IP, and broadcast at
once: `sent` starts at 0 and the clock at 1 or later, so `process_arpreq` finds
it due. Its retry fields tell its history (`Tracked`): `times_sent` is the
number of its broadcasts and `sent` the time of the last one. So a broadcast
comes after fewer than five, and giving up after exactly five, each at least a
second after the last (`LifeRule`).

A sweep walks the queue while `process_arpreq` takes requests off it. It reads
`next` before the call, and a call leaves the requests behind the visited one
alone (`processArpreq_queue`), so it visits each request once.
-/
import NetLabs.Lib.Ledger
import NetLabs.Router.Queue

namespace NetLabs.Router

open NetLabs.Lib ArpCache

variable {env : Env}

/-! ## Broadcasts of a request -/

/-- The time of a broadcast for this request: the reading stored in `sent`. -/
def Event.stamp? (request : Nat) : Event → Option Int
  | .sent (.arpRequest r stamp) _ _ => if r = request then some stamp else none
  | _ => none

/-- The times of the broadcasts for a request. -/
def stamps (request : Nat) (trace : List Event) : List Int :=
  trace.filterMap (Event.stamp? request)

/-- The last broadcast of a request is at least a second ago. -/
def Due (request : Nat) (trace : List Event) (now : Int) : Prop :=
  ∀ last ∈ (stamps request trace).getLast?, last + 1 ≤ now

/-- What must have happened to a request before an event. -/
def LifeRule (before : List Event) : Event → Prop
  | .sent (.arpRequest request stamp) _ _ =>
      (stamps request before).length < 5 ∧ Due request before stamp
  | .sent (.unreachable request _) _ _ | .unmatched request _ =>
      (stamps request before).length = 5
  | .gaveUp request now => (stamps request before).length = 5 ∧ Due request before now
  | _ => True

/-- The rule looks at the broadcasts only. -/
theorem LifeRule.congr {before before' : List Event} {e : Event}
    (same : ∀ request, stamps request before' = stamps request before) (h : LifeRule before e) :
    LifeRule before' e := by
  unfold LifeRule Due at h ⊢
  split at h <;> first | exact h | simpa only [same] using h

/-- What the rule says of a broadcast. -/
theorem LifeRule.broadcast {before : List Event} {e : Event} {request : Nat} {stamp : Int}
    (h : LifeRule before e) (made : e.stamp? request = some stamp) :
    (stamps request before).length < 5 ∧ Due request before stamp := by
  unfold Event.stamp? at made
  split at made
  · split at made
    · rename_i same
      subst same
      obtain rfl := Option.some.inj made
      exact h
    · cases made
  · cases made

/-- The request an event of the sweep visits. -/
def Event.visited? : Event → Option Nat
  | .visited request => some request
  | _ => none

/-- The requests visited so far. -/
def Sr.visits (sr : Sr) : List Nat := sr.trace.filterMap Event.visited?

theorem stamps_append_none {request : Nat} {trace new : List Event}
    (none : ∀ e ∈ new, e.stamp? request = none) : stamps request (trace ++ new) =
      stamps request trace := by
  rw [stamps, List.filterMap_append, List.filterMap_eq_nil_iff.mpr none, List.append_nil]
  rfl

/-! ## The invariant -/

/-- The retry fields of a request tell its history. -/
structure Tracked (trace : List Event) (req : ArpReq) : Prop where
  count : (stamps req.addr trace).length = req.timesSent
  few : req.timesSent ≤ 5
  last : ∀ last ∈ (stamps req.addr trace).getLast?, req.sent = last
  never : req.timesSent = 0 → req.sent = 0

/-- What holds of requests after every move. -/
structure LifeInv (sr : Sr) : Prop where
  queue : QueueInv sr
  tracked : ∀ req ∈ sr.cache.requests, Tracked sr.trace req
  unborn : ∀ request, sr.allocations ≤ request → stamps request sr.trace = []
  orderly : Justified LifeRule sr.trace

theorem lifeInv_init (ifList : List SrIf) (routingTable : List SrRt) :
    LifeInv (srInit ifList routingTable) where
  queue := queueInv_init ifList routingTable
  tracked := nofun
  unborn _ _ := rfl
  orderly := justified_nil

theorem Tracked.append_none {trace new : List Event} {req : ArpReq} (h : Tracked trace req)
    (none : ∀ e ∈ new, e.stamp? req.addr = none) : Tracked (trace ++ new) req := by
  have same : stamps req.addr (trace ++ new) = stamps req.addr trace := stamps_append_none none
  constructor
  · rw [same]
    exact h.count
  · exact h.few
  · rw [same]
    exact h.last
  · exact h.never

/-- A move that broadcasts nothing and makes no request. -/
theorem LifeInv.of_silent {s t : Sr} (h : LifeInv s) (queue : QueueInv t)
    (requests : t.cache.requests ⊆ s.cache.requests) (alloc : t.allocations = s.allocations)
    {new : List Event} (trace : t.trace = s.trace ++ new)
    (silent : ∀ e ∈ new, ∀ request, e.stamp? request = none)
    (rule : ∀ e ∈ new, LifeRule s.trace e) : LifeInv t where
  queue := queue
  tracked req hreq :=
    trace ▸ (h.tracked req (requests hreq)).append_none fun e he => silent e he req.addr
  unborn request old := by
    rw [trace, stamps_append_none fun e he => silent e he request]
    exact h.unborn request (alloc ▸ old)
  orderly := by
    rw [trace]
    refine h.orderly.append fun before e after split => ?_
    subst split
    exact (rule e (by simp)).congr fun request =>
      stamps_append_none fun x hx => silent x (by simp [hx]) request

/-- An event that is about no request. -/
def Event.Silent (e : Event) : Prop :=
  (∀ request, e.stamp? request = none) ∧ ∀ before, LifeRule before e

theorem Event.Quiet.silent {e : Event} (h : e.Quiet) : e.Silent := by
  cases e with
  | sent cause | refused cause =>
    rcases h with rfl | rfl | rfl <;> exact ⟨fun _ => rfl, fun _ => trivial⟩
  | visited => exact ⟨fun _ => rfl, fun _ => trivial⟩
  | queued | unmatched | gaveUp => exact h.elim

theorem replayEvent_silent (sr : Sr) (interface : IfName) (intf : SrIf) (ip : UInt32) (mac : Mac)
    (packet : SrPacket) : (sr.replayEvent interface intf ip mac packet).Silent := by
  unfold Sr.replayEvent Sr.sendEvent
  split <;> exact ⟨fun _ => rfl, fun _ => trivial⟩

/-- What becomes of a packet of a request that is given up stands under the
same rule, whatever it is. -/
theorem unreachableEvent_rule (sr : Sr) {request : Nat} {before : List Event}
    (five : (stamps request before).length = 5) (packet : SrPacket) :
    (∀ r, (sr.unreachableEvent env request packet).stamp? r = none) ∧
      LifeRule before (sr.unreachableEvent env request packet) := by
  rcases unreachableEvent_cases env sr request packet with eq | ⟨iface, frame, eq⟩ <;>
    rw [eq] <;> exact ⟨fun _ => rfl, five⟩

/-! ## Moves -/

theorem Tracked.due {trace : List Event} {req : ArpReq} (h : Tracked trace req) {now : Int}
    (due : 1 ≤ now - req.sent) : Due req.addr trace now := by
  intro last hlast
  have same := h.last last hlast
  omega

theorem lifeInv_giveUp {s : Sr} {req : ArpReq} (h : LifeInv s)
    (live : s.cache.deref req.addr = some req) (due : 1 ≤ env.time s.ticks - req.sent)
    (many : 5 ≤ req.timesSent) (queue : QueueInv (s.giveUp env req)) :
    LifeInv (s.giveUp env req) := by
  have tracked := h.tracked req (List.mem_of_find?_eq_some live)
  have five : (stamps req.addr s.trace).length = 5 := by
    have count := tracked.count
    have few := tracked.few
    omega
  have trace : (s.giveUp env req).trace = s.trace ++
      (req.packets.map (s.unreachableEvent env req.addr) ++
        [.gaveUp req.addr (env.time s.ticks)]) := by
    rw [Sr.giveUp, List.append_assoc]
  have rule : ∀ e ∈ req.packets.map (s.unreachableEvent env req.addr) ++
      [.gaveUp req.addr (env.time s.ticks)],
      (∀ r, e.stamp? r = none) ∧ LifeRule s.trace e := by
    intro e he
    rcases List.mem_append.mp he with he | he
    · obtain ⟨p, -, rfl⟩ := List.mem_map.mp he
      exact unreachableEvent_rule s five p
    · obtain rfl := List.mem_singleton.mp he
      exact ⟨fun _ => rfl, five, tracked.due due⟩
  exact h.of_silent queue (List.eraseP_sublist.subset) rfl trace (fun e he => (rule e he).1)
    fun e he => (rule e he).2

theorem stamps_broadcast (env : Env) (s : Sr) (req : ArpReq) (intf : SrIf) (request : Nat) :
    stamps request (s.broadcast env req intf).trace =
      if req.addr = request then stamps request s.trace ++ [env.time (s.ticks + 1)]
      else stamps request s.trace := by
  rw [Sr.broadcast, stamps, List.filterMap_append, List.filterMap_cons, Event.stamp?,
    List.filterMap_nil]
  split
  · rename_i heq
    split at heq
    · cases heq
    · rename_i hne
      rw [if_neg hne, List.append_nil]
      rfl
  · rename_i stamp heq
    split at heq
    · rename_i same
      obtain rfl := Option.some.inj heq
      rw [if_pos same]
      rfl
    · cases heq

theorem lifeInv_broadcast {s : Sr} {req : ArpReq} {intf : SrIf} (h : LifeInv s)
    (clock : ∀ i, env.time i ≤ env.time (i + 1)) (live : s.cache.deref req.addr = some req)
    (due : 1 ≤ env.time s.ticks - req.sent) (few : req.timesSent < 5)
    (queue : QueueInv (s.broadcast env req intf)) : LifeInv (s.broadcast env req intf) := by
  have mine : req ∈ s.cache.requests := List.mem_of_find?_eq_some live
  have tracked := h.tracked req mine
  have later := clock s.ticks
  constructor
  · exact queue
  · intro r hr
    obtain ⟨old, hold, rfl⟩ := List.mem_map.mp hr
    have oldTracked := h.tracked old hold
    by_cases same : old.addr = req.addr
    · obtain rfl : old = req := List.inj_on_of_nodup_map h.queue.addrs hold mine same
      rw [if_pos rfl]
      constructor
      · rw [stamps_broadcast, if_pos rfl, List.length_append, oldTracked.count]
        rfl
      · exact few
      · rw [stamps_broadcast, if_pos rfl, List.getLast?_concat]
        intro last hlast
        exact Option.mem_some.mp hlast
      · exact fun zero => (Nat.succ_ne_zero _ zero).elim
    · rw [if_neg same]
      have stamps := stamps_broadcast env s req intf old.addr
      rw [if_neg (Ne.symm same)] at stamps
      constructor
      · rw [stamps]
        exact oldTracked.count
      · exact oldTracked.few
      · rw [stamps]
        exact oldTracked.last
      · exact oldTracked.never
  · intro request old
    have other : req.addr ≠ request := by
      intro same
      have small := h.queue.fresh req mine
      have large : s.allocations ≤ request := old
      omega
    rw [stamps_broadcast, if_neg other]
    exact h.unborn request old
  · refine justified_snoc.mpr ⟨h.orderly, ?_, tracked.due (by omega)⟩
    rw [tracked.count]
    exact few

theorem lifeInv_move (clock : ∀ i, env.time i ≤ env.time (i + 1)) {s t : Sr} (h : LifeInv s)
    (hmove : Move env s t) : LifeInv t := by
  have queue := queueInv_move h.queue hmove
  cases hmove with
  | @quiet e quiet =>
    have trace : (s.log e).trace = s.trace ++ [e] := rfl
    refine h.of_silent queue (List.Subset.refl _) rfl trace ?_ ?_
    · intro x hx
      obtain rfl := List.mem_singleton.mp hx
      exact quiet.silent.1
    · intro x hx
      obtain rfl := List.mem_singleton.mp hx
      exact quiet.silent.2 _
  | table cache ticks same =>
    exact h.of_silent queue (same ▸ List.Subset.refl _) rfl (List.append_nil _).symm nofun nofun
  | broadcast live due few first found => exact lifeInv_broadcast h clock live due few queue
  | giveUp live due many => exact lifeInv_giveUp h live due many queue
  | @resolve req interface intf live found mac =>
    have silent : ∀ e ∈ req.packets.map (s.replayEvent interface intf req.ip mac), e.Silent := by
      intro e he
      obtain ⟨p, -, rfl⟩ := List.mem_map.mp he
      exact replayEvent_silent s interface intf req.ip mac p
    exact h.of_silent queue (List.eraseP_sublist.trans List.eraseP_sublist).subset rfl rfl
      (fun e he => (silent e he).1) fun e he => (silent e he).2 _
  | unlink live idle =>
    exact h.of_silent queue (List.eraseP_sublist.trans List.eraseP_sublist).subset rfl
      (List.append_nil _).symm nofun nofun

theorem lifeInv_enqueue {s : Sr} {buf : List UInt8} {nextHop : SrRt} (h : LifeInv s)
    (route : nextHop ∈ s.routingTable) (long : ipHdrSize + etherHdrSize ≤ buf.length) :
    LifeInv (s.enqueue nextHop.gw buf nextHop.interface).1 := by
  have queue := queueInv_enqueue h.queue route long
  have trace := trace_enqueue s nextHop.gw buf nextHop.interface
  have same : ∀ request, stamps request
      (s.enqueue nextHop.gw buf nextHop.interface).1.trace = stamps request s.trace := by
    intro request
    rw [trace]
    exact stamps_append_none fun e he => by obtain rfl := List.mem_singleton.mp he; rfl
  have nonempty : buf.length ≠ 0 := nonempty_of_long long
  constructor
  · exact queue
  · intro r hr
    have old : ∀ req ∈ s.cache.requests,
        Tracked (s.enqueue nextHop.gw buf nextHop.interface).1.trace req := by
      intro req hreq
      have tracked := h.tracked req hreq
      exact ⟨same _ ▸ tracked.count, tracked.few, same _ ▸ tracked.last, tracked.never⟩
    rcases enqueue_cases s nextHop.gw nextHop.interface nonempty with
      ⟨-, eq⟩ | ⟨before, req, after, split, -, eq⟩
    · rw [eq] at hr
      rcases List.mem_cons.mp hr with rfl | hr
      · have unborn := (same s.allocations).trans (h.unborn s.allocations le_rfl)
        refine ⟨?_, Nat.zero_le _, ?_, fun _ => rfl⟩
        · dsimp only
          rw [unborn]
          rfl
        · dsimp only
          rw [unborn]
          intro last hlast
          cases hlast
      · exact old r hr
    · rw [eq] at hr
      have mine : ∀ r ∈ before ++ req :: after, r ∈ s.cache.requests := fun r hr => split ▸ hr
      rcases List.mem_append.mp hr with hr | hr
      · exact old r (mine r (List.mem_append_left _ hr))
      · rcases List.mem_cons.mp hr with rfl | hr
        · have tracked := old req (mine req (by simp))
          exact ⟨tracked.count, tracked.few, tracked.last, tracked.never⟩
        · exact old r (mine r (by simp [hr]))
  · intro request old
    rw [same]
    exact h.unborn request (le_trans (Nat.le_add_right _ 2) old)
  · rw [trace]
    exact justified_snoc.mpr ⟨h.orderly, trivial⟩

/-! ## Between operations -/

/-- Every request on the queue was broadcast. -/
def Sr.Started (sr : Sr) : Prop := ∀ req ∈ sr.cache.requests, 1 ≤ req.timesSent

theorem started_move {s t : Sr} (h : s.Started) (hmove : Move env s t) : t.Started := by
  cases hmove with
  | quiet => exact h
  | table cache ticks same => exact fun req hreq => h req (same ▸ hreq)
  | broadcast =>
    intro r hr
    obtain ⟨old, hold, rfl⟩ := List.mem_map.mp hr
    have started := h old hold
    split
    · exact Nat.succ_pos _
    · exact started
  | giveUp => exact fun req hreq => h req (List.eraseP_sublist.subset hreq)
  | resolve | unlink =>
    exact fun req hreq => h req ((List.eraseP_sublist.trans List.eraseP_sublist).subset hreq)

/-- The visit to the request of a queued packet broadcasts a new request. -/
theorem started_enqueue (positive : ∀ i, 1 ≤ env.time i) {s sr' : Sr} {buf : List UInt8}
    {nextHop : SrRt} (inv : QueueInv s) (h : s.Started) (route : nextHop ∈ s.routingTable)
    (long : ipHdrSize + etherHdrSize ≤ buf.length)
    (visited : (s.enqueue nextHop.gw buf nextHop.interface).1.processArpreq env
      (s.enqueue nextHop.gw buf nextHop.interface).2 = some sr') : sr'.Started := by
  have queue := queueInv_enqueue inv route long
  have nonempty : buf.length ≠ 0 := nonempty_of_long long
  rcases enqueue_cases s nextHop.gw nextHop.interface nonempty with
    ⟨-, eq⟩ | ⟨before, req, after, split, -, eq⟩
  · -- the request is new
    rw [eq] at queue visited
    obtain ⟨req, live, haddr, outcome⟩ := processArpreq_cases visited
    set new : ArpReq := ⟨s.allocations, nextHop.gw, 0, 0, [s.newPacket buf nextHop.interface]⟩
    obtain rfl : req = new := List.inj_on_of_nodup_map queue.addrs
      (List.mem_of_find?_eq_some live) List.mem_cons_self haddr
    have now := positive s.ticks
    rcases outcome with ⟨early, -⟩ | ⟨-, -, packet, intf, -, -, rfl⟩ | ⟨-, many, -⟩
    · have early : env.time s.ticks - 0 < 1 := early
      omega
    · intro r hr
      obtain ⟨old, hold, rfl⟩ := List.mem_map.mp hr
      split
      · exact Nat.succ_pos _
      · rename_i hne
        rcases List.mem_cons.mp hold with rfl | hold
        · exact (hne rfl).elim
        · exact h old hold
    · exact (Nat.not_succ_le_zero _ many).elim
  · -- there was one
    have started : (s.enqueue nextHop.gw buf nextHop.interface).1.Started := by
      rw [eq]
      intro r hr
      have mine : ∀ r ∈ before ++ req :: after, r ∈ s.cache.requests := fun r hr => split ▸ hr
      rcases List.mem_append.mp hr with hr | hr
      · exact h r (mine r (List.mem_append_left _ hr))
      · rcases List.mem_cons.mp hr with rfl | hr
        · exact h req (mine req (by simp))
        · exact h r (mine r (by simp [hr]))
    exact chain_invariant Sr.Started started_move (processArpreq_moves visited) started

theorem lifeInv_step (clock : ∀ i, env.time i ≤ env.time (i + 1)) (positive : ∀ i, 1 ≤ env.time i)
    {s t : Sr} {op : Op} (h : LifeInv s ∧ s.Started) (hstep : Step env s op t) :
    LifeInv t ∧ t.Started := by
  refine ⟨step_invariant LifeInv (lifeInv_move clock) lifeInv_enqueue h.1 hstep, ?_⟩
  rcases step_cases hstep with moves | ⟨buf, nextHop, route, long, visited⟩
  · exact chain_invariant Sr.Started started_move moves h.2
  · exact started_enqueue positive h.1.queue h.2 route long visited

/-! ## A sweep -/

theorem next_append {before after : List ArpReq} {req : ArpReq}
    (other : ∀ r ∈ before, r.addr ≠ req.addr) :
    next req.addr (before ++ req :: after) = after.head?.map ArpReq.addr := by
  induction before with
  | nil => rw [List.nil_append, next, if_pos rfl]
  | cons r before ih =>
    rw [List.cons_append, next, if_neg (other r List.mem_cons_self),
      ih fun x hx => other x (List.mem_cons_of_mem r hx)]

/-- `process_arpreq` leaves the requests behind the visited one alone, and
visits none itself. -/
theorem processArpreq_queue {s t : Sr} {before after : List ArpReq} {req : ArpReq}
    (split : s.cache.requests = before ++ req :: after)
    (distinct : (s.cache.requests.map ArpReq.addr).Nodup)
    (h : s.processArpreq env req.addr = some t) :
    (∃ before', t.cache.requests = before' ++ after) ∧ t.visits = s.visits := by
  obtain ⟨same, live, haddr, outcome⟩ := processArpreq_cases h
  obtain rfl : same = req :=
    List.inj_on_of_nodup_map distinct (List.mem_of_find?_eq_some live) (by simp [split]) haddr
  have other := addr_ne_of_split (split ▸ distinct)
  rcases outcome with ⟨-, rfl⟩ | ⟨-, -, packet, intf, -, -, rfl⟩ | ⟨-, -, rfl⟩
  · exact ⟨⟨before ++ [same], by simp [split]⟩, rfl⟩
  · constructor
    · exact ⟨before ++ [_], (updateReq_split _ split other).trans (List.append_cons _ _ _)⟩
    · rw [Sr.visits, Sr.broadcast, List.filterMap_append]
      exact List.append_nil _
  · constructor
    · refine ⟨before, ?_⟩
      show s.cache.requests.eraseP _ = _
      rw [split, List.eraseP_append_right _ fun r hr => by simpa using other.1 r hr,
        List.eraseP_cons_of_pos (by simp)]
    · rw [Sr.visits, Sr.giveUp, List.filterMap_append, List.filterMap_append,
        filterMap_no_entries]
      · exact (List.append_nil _).trans (List.append_nil _)
      · intro p _
        rcases unreachableEvent_cases env s same.addr p with eq | ⟨iface, frame, eq⟩ <;>
          rw [eq] <;> rfl

/-- A turn of the sweep visits the first of the requests that are left, and
leaves the others. -/
theorem sweep_turn {s u : Sr} {before rest : List ArpReq} {req : ArpReq} (inv : QueueInv s)
    (split : s.cache.requests = before ++ req :: rest)
    (visited : (s.log (.visited req.addr)).processArpreq env req.addr = some u) :
    QueueInv u ∧ (∃ before', u.cache.requests = before' ++ rest) ∧
      u.visits = s.visits ++ [req.addr] := by
  have visit : QueueInv (s.log (.visited req.addr)) := inv.log _
  have split' : (s.log (.visited req.addr)).cache.requests = before ++ req :: rest := split
  obtain ⟨behind, visits⟩ := processArpreq_queue split' visit.addrs visited
  refine ⟨chain_invariant QueueInv queueInv_move (processArpreq_moves visited) visit, behind, ?_⟩
  rw [visits, Sr.visits, Sr.log, List.filterMap_append]
  rfl

/-- A sweep that stands at the head of `rest` visits `rest`. -/
theorem sweepLoop_visits {rest before : List ArpReq} {fuel : Nat} {s t : Sr} (inv : QueueInv s)
    (split : s.cache.requests = before ++ rest)
    (h : s.sweepLoop env fuel (rest.head?.map ArpReq.addr) = some t) :
    t.visits = s.visits ++ rest.map ArpReq.addr := by
  induction rest generalizing before fuel s with
  | nil =>
    rw [List.head?_nil, Option.map_none] at h
    unfold Sr.sweepLoop at h
    obtain rfl : s = t := Option.some.inj h
    exact (List.append_nil _).symm
  | cons req rest ih =>
    rw [List.head?_cons, Option.map_some] at h
    cases fuel with
    | zero => simp [Sr.sweepLoop] at h
    | succ fuel =>
      rw [Sr.sweepLoop, split, next_append (addr_ne_of_split (split ▸ inv.addrs)).1] at h
      split at h
      · cases h
      · rename_i u visited
        obtain ⟨inv', ⟨before', behind⟩, visits⟩ := sweep_turn inv split visited
        rw [ih inv' behind h, visits, List.map_cons, List.append_assoc, List.singleton_append]

/-- With a turn for each request left the sweep ends. -/
theorem sweepLoop_total {rest before : List ArpReq} {fuel : Nat} {s : Sr} (inv : QueueInv s)
    (ports : s.Ported) (split : s.cache.requests = before ++ rest) (enough : rest.length ≤ fuel) :
    ∃ t, s.sweepLoop env fuel (rest.head?.map ArpReq.addr) = some t := by
  induction rest generalizing before fuel s with
  | nil =>
    rw [List.head?_nil, Option.map_none]
    unfold Sr.sweepLoop
    exact ⟨s, rfl⟩
  | cons req rest ih =>
    cases fuel with
    | zero => exact (Nat.not_succ_le_zero _ enough).elim
    | succ fuel =>
      have visit : QueueInv (s.log (.visited req.addr)) := inv.log _
      have live : req ∈ s.cache.requests := by simp [split]
      obtain ⟨u, visited⟩ : ∃ u, (s.log (.visited req.addr)).processArpreq env req.addr = some u :=
        processArpreq_total visit ports live
      obtain ⟨inv', ⟨before', behind⟩, -⟩ := sweep_turn inv split visited
      have ports : (s.log (.visited req.addr)).Ported := ports
      have ports' : u.Ported := ports.of_config (processArpreq_moves visited).config
      rw [List.head?_cons, Option.map_some, Sr.sweepLoop, split,
        next_append (addr_ne_of_split (split ▸ inv.addrs)).1, visited]
      exact ih inv' ports' behind (Nat.le_of_succ_le_succ enough)

/-! ## The life cycle -/

/-- What holds between operations. -/
structure LifeCycle (env : Env) (sr : Sr) : Prop where
  ips : (sr.cache.requests.map ArpReq.ip).Nodup
  nonempty : ∀ req ∈ sr.cache.requests, req.packets ≠ []
  retries : ∀ req ∈ sr.cache.requests, 1 ≤ req.timesSent ∧ req.timesSent ≤ 5
  atMostFive : ∀ request, (stamps request sr.trace).length ≤ 5
  spaced : ∀ request, (stamps request sr.trace).IsChain fun last next => last + 1 ≤ next
  orderly : Justified LifeRule sr.trace
  /-- Requests are distinct objects, and the next sweep visits each once. -/
  addrs : (sr.cache.requests.map ArpReq.addr).Nodup
  sweep : ∀ sr', Step env sr .timeout sr' →
    sr'.visits = sr.visits ++ sr.cache.requests.map ArpReq.addr
  /-- The next sweep ends, and dereferences no NULL pointer. -/
  total : sr.Ported → ∃ sr', Step env sr .timeout sr'

theorem LifeInv.lifeCycle {sr : Sr} (h : LifeInv sr) (started : sr.Started) :
    LifeCycle env sr := by
  set expired : Sr :=
    { sr with cache := sr.cache.expire (env.time sr.ticks), ticks := sr.ticks + 1 }
  have inv : QueueInv expired := h.queue.sublist (.refl _) rfl rfl (List.prefix_refl _)
  have split : expired.cache.requests = [] ++ sr.cache.requests := rfl
  constructor
  · exact h.queue.ips
  · exact h.queue.nonempty
  · exact fun req hreq => ⟨started req hreq, (h.tracked req hreq).few⟩
  · exact fun request =>
      h.orderly.length_filterMap_le fun before e stamp rule made => (rule.broadcast made).1
  · exact fun request =>
      h.orderly.isChain_filterMap fun before e stamp rule made => (rule.broadcast made).2
  · exact h.orderly
  · exact h.queue.addrs
  · intro sr' hstep
    show sr'.visits = expired.visits ++ sr.cache.requests.map ArpReq.addr
    exact sweepLoop_visits inv split hstep
  · intro ports
    have ports : expired.Ported := ports
    exact sweepLoop_total inv ports split le_rfl

/-- **The life cycle of an ARP request**, on every run with a clock that does
not run backwards and starts at 1 or later. -/
theorem request_life_cycle {ifList : List SrIf} {routingTable : List SrRt} {ops : List Op} {sr : Sr}
    (clock : ∀ i, env.time i ≤ env.time (i + 1)) (positive : ∀ i, 1 ≤ env.time i)
    (h : Run (Step env) (srInit ifList routingTable) ops sr) : LifeCycle env sr := by
  have inv : LifeInv sr ∧ sr.Started :=
    Run.invariant (fun s => LifeInv s ∧ s.Started) ⟨lifeInv_init ifList routingTable, nofun⟩
      (lifeInv_step clock positive) h
  exact inv.1.lifeCycle inv.2

/-- Two packets wait for the next hop, which does not answer. -/
theorem request_life_cycle_given_up :
    LifeCycle .counting ((twoPorts.applyAll .counting
      [.frame (udpFrame (.local 1) 1) eth0, .timeout,
        .frame (udpFrame (.local 1) 2) eth0, .timeout, .timeout, .timeout,
        .timeout]).get (by decide +kernel)) :=
  request_life_cycle
    (fun i => show (i : Int) + 1 ≤ (i + 1 : Nat) + 1 by omega)
    (fun i => show (1 : Int) ≤ (i : Int) + 1 by omega)
    (run_applyAll (Option.some_get _).symm)

end NetLabs.Router
