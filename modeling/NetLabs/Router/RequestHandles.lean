/-
NetLabs.Router.RequestHandles — are the pointers to ARP requests valid?

A request a thread has a pointer to is on the queue, or the packet thread
unlinked it and is the only one to know it. A destroyed request is neither, so
an access through such a pointer is valid. One order of turns breaks this: the
packet thread holds the request `sr_arpcache_queuereq` returned, without the
lock, while a sweep gives that request up. `SparesHeld` excludes the sweep, and
then the invariant `HandleInv` holds in every state of every run.
-/
import NetLabs.Lib.Ledger
import NetLabs.Router.LifeCycle
import NetLabs.Router.Threads

namespace NetLabs.Router

open NetLabs.Lib ArpCache

variable {env : Env}

/-! ## The property -/

/-- The request was not destroyed before. -/
def Access.Valid (before : List Access) (access : Access) : Prop :=
  .destroy access.request ∉ before

/-- No thread used or destroyed a request that was destroyed before. -/
def HandlesValid (accesses : List Access) : Prop := Justified Access.Valid accesses

/-! ## The condition -/

/-- A sweep whose next reading of the clock has the index `ticks` and that has
these requests before it gives this one up. -/
def sweepGivesUp (env : Env) (request : Nat) : Nat → List ArpReq → Bool
  | _, [] => false
  | ticks, req :: rest =>
      if req.addr = request then decide (env.time ticks - req.sent ≥ 1 ∧ 5 ≤ req.timesSent)
      else sweepGivesUp env request (ticks + 2) rest

/-- While the packet thread holds a request that is on the queue, no sweep
gives that request up. -/
def SparesHeld (env : Env) (s : Threads) : Turn → Prop
  | .sweep => ∀ request ∈ s.packet.held,
      sweepGivesUp env request (s.sr.ticks + 1) s.sr.cache.requests = false
  | _ => True

theorem sweepGivesUp_of_not_mem {request ticks : Nat} {requests : List ArpReq}
    (absent : request ∉ requests.map ArpReq.addr) :
    sweepGivesUp env request ticks requests = false := by
  induction requests generalizing ticks with
  | nil => rfl
  | cons req rest ih =>
    rw [List.map_cons, List.mem_cons, not_or] at absent
    rw [sweepGivesUp, if_neg (Ne.symm absent.1)]
    exact ih absent.2

theorem sweepGivesUp_singleton {request ticks : Nat} {req : ArpReq} :
    sweepGivesUp env request ticks [req] = true ↔
      req.addr = request ∧ env.time ticks - req.sent ≥ 1 ∧ 5 ≤ req.timesSent := by
  by_cases same : req.addr = request
  · simp [sweepGivesUp, same]
  · simp [sweepGivesUp, same]

/-- The requests differ, so it is the visited one or it comes later. -/
theorem sweepGivesUp_cons {request ticks : Nat} {req : ArpReq} {rest : List ArpReq}
    (once : req.addr ∉ rest.map ArpReq.addr) :
    sweepGivesUp env request ticks (req :: rest) =
      (sweepGivesUp env request ticks [req] || sweepGivesUp env request (ticks + 2) rest) := by
  simp only [sweepGivesUp]
  split
  · rename_i same
    rw [sweepGivesUp_of_not_mem (same ▸ once), Bool.or_false]
  · rw [Bool.false_or]

/-! ## The queue and the record -/

/-- The addresses of the requests on the queue. -/
def Sr.queued (sr : Sr) : List Nat := sr.cache.requests.map ArpReq.addr

/-- A request that was made and is not on the queue. -/
def Sr.OffQueue (sr : Sr) (request : Nat) : Prop :=
  request < sr.allocations ∧ request ∉ sr.queued

/-- Every access so far was valid, and what was destroyed is off the queue. -/
structure Recorded (accesses : List Access) (sr : Sr) : Prop where
  queue : QueueInv sr
  valid : HandlesValid accesses
  gone : ∀ request, .destroy request ∈ accesses → sr.OffQueue request

/-- Requests leave the queue, and none is made. -/
structure Shrinks (s t : Sr) : Prop where
  queued : t.queued ⊆ s.queued
  allocations : t.allocations = s.allocations
  routes : t.routingTable = s.routingTable

theorem Shrinks.refl (s : Sr) : Shrinks s s := ⟨List.Subset.refl _, rfl, rfl⟩

theorem Shrinks.trans {s t u : Sr} (h : Shrinks s t) (h' : Shrinks t u) : Shrinks s u where
  queued := List.Subset.trans h'.queued h.queued
  allocations := h'.allocations.trans h.allocations
  routes := h'.routes.trans h.routes

theorem Sr.OffQueue.shrinks {s t : Sr} {request : Nat} (h : s.OffQueue request)
    (shrinks : Shrinks s t) : t.OffQueue request :=
  ⟨shrinks.allocations ▸ h.1, fun queued => h.2 (shrinks.queued queued)⟩

theorem Recorded.shrinks {accesses : List Access} {s t : Sr} (h : Recorded accesses s)
    (queue : QueueInv t) (shrinks : Shrinks s t) : Recorded accesses t where
  queue := queue
  valid := h.valid
  gone request destroyed := (h.gone request destroyed).shrinks shrinks

/-- What is on the queue was not destroyed. -/
theorem Recorded.live {accesses : List Access} {s : Sr} (h : Recorded accesses s) {request : Nat}
    (queued : request ∈ s.queued) : .destroy request ∉ accesses :=
  fun destroyed => (h.gone request destroyed).2 queued

/-- An access to a request that was not destroyed. -/
theorem Recorded.access {accesses : List Access} {s : Sr} {access : Access}
    (h : Recorded accesses s) (live : .destroy access.request ∉ accesses)
    (off : ∀ request, access = .destroy request → s.OffQueue request) :
    Recorded (accesses ++ [access]) s where
  queue := h.queue
  valid := justified_snoc.mpr ⟨h.valid, live⟩
  gone r destroyed := by
    rcases List.mem_append.mp destroyed with before | now
    · exact h.gone r before
    · exact off r (List.mem_singleton.mp now).symm

/-- A request that was not destroyed is used. -/
theorem Recorded.use {accesses : List Access} {s : Sr} {request : Nat} (h : Recorded accesses s)
    (live : .destroy request ∉ accesses) : Recorded (accesses ++ [.use request]) s := by
  refine h.access live fun r now => ?_
  cases now

/-- A request that was not destroyed and is off the queue is destroyed. -/
theorem Recorded.destroy {accesses : List Access} {s : Sr} {request : Nat}
    (h : Recorded accesses s) (live : .destroy request ∉ accesses) (off : s.OffQueue request) :
    Recorded (accesses ++ [.destroy request]) s := by
  refine h.access live fun r now => ?_
  cases now
  exact off

/-- A change of retry fields leaves every request on the queue. -/
theorem queued_broadcast (s : Sr) (req : ArpReq) (intf : SrIf) :
    (s.broadcast env req intf).queued = s.queued := by
  unfold Sr.queued Sr.broadcast ArpCache.updateReq
  rw [List.map_map]
  refine List.map_congr_left fun r _ => ?_
  rw [Function.comp_apply]
  split <;> rfl

theorem Move.shrinks {s t : Sr} (h : Move env s t) : Shrinks s t := by
  have same : ∀ {u : Sr}, u.cache.requests.Sublist s.cache.requests →
      u.allocations = s.allocations → u.routingTable = s.routingTable → Shrinks s u :=
    fun sub alloc routes => ⟨(sub.map _).subset, alloc, routes⟩
  cases h with
  | quiet => exact same (.refl _) rfl rfl
  | table cache ticks queue => exact same (queue ▸ .refl _) rfl rfl
  | broadcast => exact ⟨fun r hr => queued_broadcast s _ _ ▸ hr, rfl, rfl⟩
  | giveUp => exact same List.eraseP_sublist rfl rfl
  | resolve => exact same (List.eraseP_sublist.trans List.eraseP_sublist) rfl rfl
  | unlink => exact same (List.eraseP_sublist.trans List.eraseP_sublist) rfl rfl

theorem Moves.shrinks {s t : Sr} (h : Moves env s t) : Shrinks s t :=
  chain_invariant (Shrinks s) (fun before move => before.trans move.shrinks) h (.refl s)

/-! ## A sweep -/

/-- What a sweep does that stands at the first of `rest`: it makes the accesses
`new`, and a request that is on the queue is destroyed or stays. -/
structure Swept (env : Env) (accesses : List Access) (rest : List ArpReq) (s t : Sr)
    (new : List Access) : Prop where
  recorded : Recorded (accesses ++ new) t
  shrinks : Shrinks s t
  trace : ∃ events, t.trace = s.trace ++ events ∧ events.filterMap Event.access? = new
  destroys : ∀ request, .destroy request ∈ new → request ∈ s.queued
  spared : ∀ request ∈ s.queued, sweepGivesUp env request s.ticks rest = false →
    request ∈ t.queued
  givenUp : ∀ request ∈ s.queued, sweepGivesUp env request s.ticks rest = true →
    .destroy request ∈ new

/-- A request that is destroyed is off the queue. -/
theorem offQueue_destroy {s : Sr} (inv : QueueInv s) {req : ArpReq}
    (live : req ∈ s.cache.requests) :
    ({ s with cache := s.cache.srArpreqDestroy req.addr } : Sr).OffQueue req.addr := by
  refine ⟨inv.fresh req live, ?_⟩
  obtain ⟨before, after, split, erased, -, -⟩ := split_of_find? (deref_of_mem inv.addrs live)
  have other := key_ne_of_split (split ▸ inv.addrs)
  intro queued
  obtain ⟨r, hr, same⟩ := List.mem_map.mp queued
  have hr : r ∈ s.cache.requests.eraseP (·.addr = req.addr) := hr
  rw [erased] at hr
  exact other r hr same

/-- The requests that are not destroyed stay on the queue. -/
theorem queued_destroy {s : Sr} {request other : Nat} (queued : other ∈ s.queued)
    (ne : other ≠ request) :
    other ∈ ({ s with cache := s.cache.srArpreqDestroy request } : Sr).queued := by
  obtain ⟨r, hr, rfl⟩ := List.mem_map.mp queued
  refine List.mem_map_of_mem ?_
  exact (List.mem_eraseP_of_neg (by simpa using ne)).mpr hr

/-- The events about the packets of a request are no accesses. -/
theorem access?_unreachable (sr : Sr) (request : Nat) (packets : List SrPacket) :
    (packets.map (sr.unreachableEvent env request)).filterMap Event.access? = [] := by
  refine filterMap_no_entries fun packet _ => ?_
  rcases unreachableEvent_cases env sr request packet with eq | ⟨iface, frame, eq⟩
  · rw [eq]
    rfl
  · rw [eq]
    rfl

/-- A turn of the sweep that does not give up its request. -/
theorem Recorded.visit_stays {accesses : List Access} {s u : Sr} {req : ArpReq} {new : List Event}
    (h : Recorded (accesses ++ [.use req.addr]) (s.log (.visited req.addr)))
    (moves : Moves env (s.log (.visited req.addr)) u) (same : u.queued = s.queued)
    (trace : u.trace = s.trace ++ .visited req.addr :: new)
    (silent : new.filterMap Event.access? = [])
    (stays : ¬ (env.time s.ticks - req.sent ≥ 1 ∧ 5 ≤ req.timesSent)) :
    Swept env accesses [req] s u [.use req.addr] where
  recorded := h.shrinks (chain_invariant QueueInv queueInv_move moves h.queue) moves.shrinks
  shrinks :=
    have first : Shrinks s (s.log (.visited req.addr)) := ⟨List.Subset.refl _, rfl, rfl⟩
    first.trans moves.shrinks
  trace := by
    refine ⟨_, trace, ?_⟩
    rw [List.filterMap_cons, silent]
    rfl
  destroys request destroyed := by cases List.mem_singleton.mp destroyed
  spared request queued _ := same ▸ queued
  givenUp request _ givenUp := (stays (sweepGivesUp_singleton.mp givenUp).2).elim

/-- A turn of the sweep that gives up its request. -/
theorem Recorded.visit_givesUp {accesses : List Access} {s : Sr} {req : ArpReq}
    (h : Recorded (accesses ++ [.use req.addr]) (s.log (.visited req.addr)))
    (live : req ∈ s.cache.requests)
    (due : env.time s.ticks - req.sent ≥ 1) (many : 5 ≤ req.timesSent) :
    Swept env accesses [req] s ((s.log (.visited req.addr)).giveUp env req)
      [.use req.addr, .destroy req.addr] where
  recorded := by
    set visited := s.log (.visited req.addr)
    have found : visited.cache.deref req.addr = some req := deref_of_mem h.queue.addrs live
    have move : Move env visited (visited.giveUp env req) := .giveUp found due many
    have used : Recorded (accesses ++ [.use req.addr]) (visited.giveUp env req) :=
      h.shrinks (queueInv_move h.queue move) move.shrinks
    have queued : req.addr ∈ visited.queued := List.mem_map_of_mem live
    have off : (visited.giveUp env req).OffQueue req.addr := offQueue_destroy h.queue live
    have destroyed := used.destroy (h.live queued) off
    rwa [List.append_assoc] at destroyed
  shrinks := ⟨(List.eraseP_sublist.map _).subset, rfl, rfl⟩
  trace := by
    set visited := s.log (.visited req.addr)
    refine ⟨.visited req.addr :: (req.packets.map (visited.unreachableEvent env req.addr) ++
      [.gaveUp req.addr (env.time s.ticks)]), ?_, ?_⟩
    · show s.trace ++ [.visited req.addr] ++ _ ++ _ = _
      rw [List.append_assoc, List.append_assoc]
      rfl
    · rw [List.filterMap_cons, List.filterMap_append, access?_unreachable]
      rfl
  destroys request destroyed := by
    obtain rfl : request = req.addr := by simpa using destroyed
    exact List.mem_map_of_mem live
  spared request queued spared := by
    refine queued_destroy queued fun same => ?_
    have givenUp := sweepGivesUp_singleton.mpr ⟨same.symm, due, many⟩
    rw [spared] at givenUp
    cases givenUp
  givenUp request _ givenUp := by
    rw [(sweepGivesUp_singleton.mp givenUp).1]
    exact List.mem_cons_of_mem _ List.mem_cons_self

/-- A turn of the sweep. -/
theorem Recorded.visit {accesses : List Access} {s u : Sr} {req : ArpReq}
    (h : Recorded accesses s) (live : req ∈ s.cache.requests)
    (visited : (s.log (.visited req.addr)).processArpreq env req.addr = some u) :
    u.ticks = s.ticks + 2 ∧ ∃ new, Swept env accesses [req] s u new := by
  have visit : Move env s (s.log (.visited req.addr)) := .quiet trivial
  have used : Recorded (accesses ++ [.use req.addr]) (s.log (.visited req.addr)) :=
    (h.use (h.live (List.mem_map_of_mem live))).shrinks (queueInv_move h.queue visit)
      visit.shrinks
  have moves := processArpreq_moves visited
  obtain ⟨same, found, haddr, outcome⟩ := processArpreq_cases visited
  obtain rfl : same = req :=
    List.inj_on_of_nodup_map h.queue.addrs (List.mem_of_find?_eq_some found) live haddr
  rcases outcome with ⟨early, rfl⟩ | ⟨-, few, packet, intf, -, -, rfl⟩ | ⟨due, many, rfl⟩
  · have stays : ¬ (env.time s.ticks - same.sent ≥ 1 ∧ 5 ≤ same.timesSent) :=
      fun both => absurd early (Int.not_lt.mpr both.1)
    exact ⟨rfl, _, used.visit_stays moves rfl rfl rfl stays⟩
  · have stays : ¬ (env.time s.ticks - same.sent ≥ 1 ∧ 5 ≤ same.timesSent) :=
      fun both => absurd few (Nat.not_lt.mpr both.2)
    exact ⟨rfl, _, used.visit_stays moves (queued_broadcast _ _ _) (List.append_assoc _ _ _) rfl
        stays⟩
  · exact ⟨rfl, _, used.visit_givesUp live due many⟩

/-- A sweep visits the requests one after the other. -/
theorem Swept.cons {accesses new new' : List Access} {rest : List ArpReq} {req : ArpReq}
    {s t u : Sr} (first : Swept env accesses [req] s u new) (ticks : u.ticks = s.ticks + 2)
    (later : Swept env (accesses ++ new) rest u t new')
    (once : req.addr ∉ rest.map ArpReq.addr) :
    Swept env accesses (req :: rest) s t (new ++ new') where
  recorded := List.append_assoc accesses new new' ▸ later.recorded
  shrinks := first.shrinks.trans later.shrinks
  trace := by
    obtain ⟨events, trace, rfl⟩ := first.trace
    obtain ⟨events', trace', rfl⟩ := later.trace
    exact ⟨events ++ events', by rw [trace', trace, List.append_assoc], List.filterMap_append⟩
  destroys request destroyed := by
    rcases List.mem_append.mp destroyed with now | afterwards
    · exact first.destroys request now
    · exact first.shrinks.queued (later.destroys request afterwards)
  spared request queued spared := by
    rw [sweepGivesUp_cons once, Bool.or_eq_false_iff, ← ticks] at spared
    exact later.spared request (first.spared request queued spared.1) spared.2
  givenUp request queued givenUp := by
    rw [sweepGivesUp_cons once, ← ticks] at givenUp
    cases now : sweepGivesUp env request s.ticks [req] with
    | true => exact List.mem_append_left _ (first.givenUp request queued now)
    | false =>
      rw [now, Bool.false_or] at givenUp
      have still := first.spared request queued now
      exact List.mem_append_right _ (later.givenUp request still givenUp)

/-- A sweep that stands at the first of `rest`. -/
theorem sweepLoop_swept {rest before : List ArpReq} {accesses : List Access} {fuel : Nat}
    {s t : Sr} (h : Recorded accesses s) (split : s.cache.requests = before ++ rest)
    (swept : s.sweepLoop env fuel (rest.head?.map ArpReq.addr) = some t) :
    ∃ new, Swept env accesses rest s t new := by
  induction rest generalizing before accesses fuel s with
  | nil =>
    rw [List.head?_nil, Option.map_none] at swept
    unfold Sr.sweepLoop at swept
    obtain rfl : s = t := Option.some.inj swept
    refine ⟨[], (List.append_nil accesses).symm ▸ h, .refl s, ⟨[], by simp⟩, ?_, ?_, ?_⟩
    · intro request destroyed
      cases destroyed
    · exact fun request queued _ => queued
    · intro request _ givenUp
      cases givenUp
  | cons req rest ih =>
    rw [List.head?_cons, Option.map_some] at swept
    cases fuel with
    | zero => simp [Sr.sweepLoop] at swept
    | succ fuel =>
      rw [Sr.sweepLoop, split, next_append (addr_ne_of_split (split ▸ h.queue.addrs)).1] at swept
      split at swept
      · cases swept
      · rename_i u visited
        have live : req ∈ s.cache.requests := by simp [split]
        obtain ⟨-, ⟨before', behind⟩, -⟩ := sweep_turn h.queue split visited
        obtain ⟨ticks, new, first⟩ := h.visit live visited
        obtain ⟨new', later⟩ := ih first.recorded behind swept
        have distinct := h.queue.addrs
        rw [split, List.map_append, List.map_cons] at distinct
        have once := (List.nodup_cons.mp (List.nodup_append.mp distinct).2.1).1
        exact ⟨new ++ new', first.cons ticks later once⟩

/-- A turn of the timeout thread. -/
theorem timeout_swept {accesses : List Access} {s t : Sr} (h : Recorded accesses s)
    (swept : s.srArpcacheTimeout env = some t) :
    ∃ new, Recorded (accesses ++ new) t ∧ Shrinks s t ∧
      (t.trace.drop s.trace.length).filterMap Event.access? = new ∧
      (∀ request, .destroy request ∈ new → request ∈ s.queued) ∧
      ∀ request ∈ s.queued,
        if sweepGivesUp env request (s.ticks + 1) s.cache.requests then .destroy request ∈ new
        else request ∈ t.queued := by
  set expired : Sr :=
    { s with cache := s.cache.expire (env.time s.ticks), ticks := s.ticks + 1 }
  have expire : Move env s expired := .table s _ _ rfl
  have start : Recorded accesses expired :=
    h.shrinks (queueInv_move h.queue expire) expire.shrinks
  have split : expired.cache.requests = [] ++ s.cache.requests := rfl
  obtain ⟨new, sweep⟩ := sweepLoop_swept start split swept
  obtain ⟨events, trace, accessed⟩ := sweep.trace
  have trace : t.trace = s.trace ++ events := trace
  refine ⟨new, sweep.recorded, expire.shrinks.trans sweep.shrinks, ?_, sweep.destroys, ?_⟩
  · rw [trace, List.drop_left, accessed]
  · intro request queued
    split
    · exact sweep.givenUp request queued ‹_›
    · exact sweep.spared request queued (Bool.eq_false_iff.mpr ‹_›)

/-! ## The invariant -/

/-- What the packet thread knows about the request it has a pointer to. -/
def PacketThread.Sound (sr : Sr) (accesses : List Access) : PacketThread → Prop
  | .idle => True
  | .missed packet nextHop =>
      nextHop ∈ sr.routingTable ∧ ipHdrSize + etherHdrSize ≤ packet.length
  | .holding request | .givingUp request _ => request ∈ sr.queued
  | .resolving req _ _ _ _ => sr.OffQueue req.addr ∧ .destroy req.addr ∉ accesses
  | .replayed request => sr.OffQueue request ∧ .destroy request ∉ accesses
  | .undefined => False

/-- What holds between two turns. -/
structure HandleInv (s : Threads) : Prop where
  recorded : Recorded s.accesses s.sr
  thread : s.packet.Sound s.sr s.accesses

theorem handleInv_start (ifList : List SrIf) (routingTable : List SrRt) :
    HandleInv (.start ifList routingTable) where
  recorded :=
    { queue := queueInv_init ifList routingTable
      valid := justified_nil
      gone := by
        intro request destroyed
        cases destroyed }
  thread := trivial

/-- Off the queue, the request stays off it, and the sweep does not destroy it. -/
theorem HandleInv.sweep {s t : Threads} (h : HandleInv s) (spares : SparesHeld env s .sweep)
    (hstep : s.sweep env = some t) : HandleInv t := by
  obtain ⟨sr, packet, accesses⟩ := s
  have turn : (sr.srArpcacheTimeout env).map (fun sr' : Sr => (⟨sr', packet, accesses ++
      (sr'.trace.drop sr.trace.length).filterMap Event.access?⟩ : Threads)) = some t ∧
      packet ≠ .undefined := by
    cases packet <;> first | exact h.thread.elim | exact ⟨hstep, by simp⟩
  obtain ⟨sr', swept, rfl⟩ := Option.map_eq_some_iff.mp turn.1
  obtain ⟨new, recorded, shrinks, accessed, destroys, outcome⟩ := timeout_swept h.recorded swept
  have thread := h.thread
  have stays : ∀ request ∈ packet.held, request ∈ sr.queued → request ∈ sr'.queued := by
    intro request held queued
    have spared := outcome request queued
    rwa [if_neg (by rw [spares request held]; exact Bool.false_ne_true)] at spared
  have mine : ∀ request, sr.OffQueue request ∧ .destroy request ∉ accesses →
      sr'.OffQueue request ∧ .destroy request ∉ accesses ++ new := by
    rintro request ⟨off, live⟩
    refine ⟨off.shrinks shrinks, fun destroyed => ?_⟩
    rcases List.mem_append.mp destroyed with before | now
    · exact live before
    · exact off.2 (destroys request now)
  rw [accessed]
  refine ⟨recorded, ?_⟩
  cases packet with
  | idle => trivial
  | missed packet nextHop => exact ⟨shrinks.routes ▸ thread.1, thread.2⟩
  | holding request => exact stays request rfl thread
  | givingUp request now => exact stays request rfl thread
  | resolving req _ _ _ _ => exact mine req.addr thread
  | replayed request => exact mine request thread
  | undefined => exact thread

/-- The request `sr_arpcache_insert` unlinks is off the queue. -/
theorem offQueue_unlinked {s : Sr} (inv : QueueInv s) {req : ArpReq} {ip : UInt32} (mac : Mac)
    (live : s.cache.findReq ip = some req) : (s.unlinked env mac ip).OffQueue req.addr := by
  refine ⟨inv.fresh req (List.mem_of_find?_eq_some live), fun queued => ?_⟩
  obtain ⟨before, after, split, erased, -, -⟩ := split_of_find? live
  obtain ⟨r, hr, same⟩ := List.mem_map.mp queued
  have hr : r ∈ s.cache.requests.eraseP (·.ip = ip) := hr
  rw [erased] at hr
  exact key_ne_of_split (split ▸ inv.addrs) r hr same

theorem HandleInv.frame {s t : Threads} {buf : List UInt8} {interface : IfName}
    (h : HandleInv s) (hstep : s.frame env buf interface = some t) : HandleInv t := by
  obtain ⟨sr, packet, accesses⟩ := s
  unfold Threads.frame at hstep
  cases packet <;> try cases hstep
  obtain ⟨⟨sr', packet⟩, begun, rfl⟩ := Option.map_eq_some_iff.mp hstep
  have recorded : Recorded accesses sr := h.recorded
  cases beginPacket_begun begun with
  | done moves =>
    have inv := chain_invariant QueueInv queueInv_move moves recorded.queue
    have done : Recorded (accesses ++ []) sr' := by
      rw [List.append_nil]
      exact recorded.shrinks inv moves.shrinks
    exact ⟨done, trivial⟩
  | missed route long =>
    have same : Recorded (accesses ++ []) sr := by rwa [List.append_nil]
    exact ⟨same, route, long⟩
  | @resolving req _ _ ip mac live =>
    have shrinks : Shrinks sr (sr.unlinked env mac ip) :=
      ⟨(List.eraseP_sublist.map _).subset, rfl, rfl⟩
    have inv : QueueInv (sr.unlinked env mac ip) :=
      recorded.queue.sublist List.eraseP_sublist rfl rfl (List.prefix_refl _)
    have queued : req.addr ∈ sr.queued := List.mem_map_of_mem (List.mem_of_find?_eq_some live)
    have untouched := recorded.live queued
    refine ⟨(recorded.use untouched).shrinks inv shrinks, offQueue_unlinked recorded.queue mac live,
      fun destroyed => ?_⟩
    rcases List.mem_append.mp destroyed with before | now
    · exact untouched before
    · cases List.mem_singleton.mp now

/-- Queueing a packet makes at most one request, with a new address, and
returns one that is on the queue. -/
theorem queued_enqueue (s : Sr) (ip : UInt32) {buf : List UInt8} (iface : IfName)
    (nonempty : buf.length ≠ 0) :
    (∀ request ∈ (s.enqueue ip buf iface).1.queued,
      request ∈ s.queued ∨ request = s.allocations) ∧
      (s.enqueue ip buf iface).2 ∈ (s.enqueue ip buf iface).1.queued := by
  rcases enqueue_cases s ip iface nonempty with ⟨-, eq⟩ | ⟨before, req, after, split, -, eq⟩
  · rw [eq]
    refine ⟨fun request queued => ?_, List.mem_map_of_mem List.mem_cons_self⟩
    rcases List.mem_cons.mp queued with rfl | old
    · exact .inr rfl
    · exact .inl old
  · have same : (s.enqueue ip buf iface).1.queued = s.queued := by
      rw [eq]
      simp [Sr.queued, Sr.queue, split, push]
    rw [same, eq]
    refine ⟨fun request queued => .inl queued, ?_⟩
    exact List.mem_map_of_mem (by simp [split])

theorem HandleInv.enqueue {s : Sr} {accesses : List Access} {buf : List UInt8} {nextHop : SrRt}
    (h : HandleInv ⟨s, .missed buf nextHop, accesses⟩) :
    HandleInv ⟨(s.enqueue nextHop.gw buf nextHop.interface).1,
      .holding (s.enqueue nextHop.gw buf nextHop.interface).2,
      accesses ++ [.use (s.enqueue nextHop.gw buf nextHop.interface).2]⟩ := by
  obtain ⟨route, long⟩ := h.thread
  obtain ⟨new, mine⟩ := queued_enqueue s nextHop.gw nextHop.interface (nonempty_of_long long)
  have recorded : Recorded accesses (s.enqueue nextHop.gw buf nextHop.interface).1 := by
    refine ⟨queueInv_enqueue h.recorded.queue route long, h.recorded.valid, ?_⟩
    intro request destroyed
    obtain ⟨made, off⟩ := h.recorded.gone request destroyed
    refine ⟨Nat.lt_add_right 2 made, fun queued => ?_⟩
    rcases new request queued with old | rfl
    · exact off old
    · exact absurd made (Nat.lt_irrefl _)
  exact ⟨recorded.use (recorded.live mine), mine⟩

/-- A request that is on the queue is found there. -/
theorem Recorded.deref {accesses : List Access} {s : Sr} {request : Nat}
    (h : Recorded accesses s) (queued : request ∈ s.queued) :
    ∃ req, s.cache.deref request = some req ∧ req.addr = request ∧ req ∈ s.cache.requests := by
  obtain ⟨req, live, rfl⟩ := List.mem_map.mp queued
  exact ⟨req, deref_of_mem h.queue.addrs live, rfl, live⟩

theorem HandleInv.visit {s : Sr} {accesses : List Access} {request : Nat} {t : Threads}
    (h : HandleInv ⟨s, .holding request, accesses⟩)
    (hstep : Threads.resume env ⟨s, .holding request, accesses⟩ = some t) : HandleInv t := by
  have queued : request ∈ s.queued := h.thread
  obtain ⟨req, found, -, -⟩ := h.recorded.deref queued
  unfold Threads.resume at hstep
  dsimp only at hstep
  rw [found] at hstep
  obtain ⟨⟨sr', packet⟩, begun, rfl⟩ := Option.map_eq_some_iff.mp hstep
  have used := h.recorded.use (h.recorded.live queued)
  obtain ⟨req, live, rfl, ⟨rfl, done, -⟩ | ⟨rfl, rfl, -⟩⟩ := beginArpreq_cases begun
  · have moves := processArpreq_moves done
    have inv := chain_invariant QueueInv queueInv_move moves h.recorded.queue
    exact ⟨used.shrinks inv moves.shrinks, trivial⟩
  · have inv : QueueInv (s.notify env req) :=
      h.recorded.queue.sublist (.refl _) rfl rfl (List.prefix_append _ _)
    exact ⟨used.shrinks inv ⟨List.Subset.refl _, rfl, rfl⟩, queued⟩

theorem HandleInv.destroy {s : Sr} {accesses : List Access} {request : Nat} {now : Int}
    {t : Threads} (h : HandleInv ⟨s, .givingUp request now, accesses⟩)
    (hstep : Threads.resume env ⟨s, .givingUp request now, accesses⟩ = some t) :
    HandleInv t := by
  have queued : request ∈ s.queued := h.thread
  obtain ⟨req, found, rfl, live⟩ := h.recorded.deref queued
  unfold Threads.resume at hstep
  dsimp only at hstep
  rw [found] at hstep
  obtain rfl := Option.some.inj hstep
  set t : Sr := { s with cache := s.cache.srArpreqDestroy req.addr }.log (.gaveUp req.addr now)
  have inv : QueueInv t :=
    h.recorded.queue.sublist List.eraseP_sublist rfl rfl (List.prefix_append _ _)
  have shrinks : Shrinks s t := ⟨(List.eraseP_sublist.map _).subset, rfl, rfl⟩
  have off : t.OffQueue req.addr := offQueue_destroy h.recorded.queue live
  exact ⟨(h.recorded.shrinks inv shrinks).destroy (h.recorded.live queued) off, trivial⟩

theorem HandleInv.replay {s : Sr} {accesses : List Access} {req : ArpReq}
    {gotOnIntf : Option SrIf} {interface : IfName} {ip : UInt32} {mac : Mac} {t : Threads}
    (h : HandleInv ⟨s, .resolving req gotOnIntf interface ip mac, accesses⟩)
    (hstep : Threads.resume env ⟨s, .resolving req gotOnIntf interface ip mac, accesses⟩ =
      some t) : HandleInv t := by
  obtain ⟨off, live⟩ := h.thread
  obtain ⟨sr', sent, rfl⟩ := Option.map_eq_some_iff.mp hstep
  have same : sr'.cache = s.cache ∧ sr'.allocations = s.allocations ∧
      sr'.routingTable = s.routingTable ∧ s.trace <+: sr'.trace := by
    rcases Sr.replayLoop_eq sent with ⟨-, rfl⟩ | ⟨intf, -, rfl⟩
    · exact ⟨rfl, rfl, rfl, List.prefix_refl _⟩
    · exact ⟨rfl, rfl, rfl, List.prefix_append _ _⟩
  obtain ⟨cache, alloc, routes, trace⟩ := same
  have inv : QueueInv sr' := h.recorded.queue.sublist (cache ▸ .refl _) alloc routes trace
  have queued : sr'.queued = s.queued := by rw [Sr.queued, cache, Sr.queued]
  have shrinks : Shrinks s sr' := ⟨fun r hr => queued ▸ hr, alloc, routes⟩
  refine ⟨(h.recorded.use live).shrinks inv shrinks, off.shrinks shrinks, fun destroyed => ?_⟩
  rcases List.mem_append.mp destroyed with before | now
  · exact live before
  · cases List.mem_singleton.mp now

theorem HandleInv.destroyReplayed {s : Sr} {accesses : List Access} {request : Nat}
    (h : HandleInv ⟨s, .replayed request, accesses⟩) :
    HandleInv ⟨{ s with cache := s.cache.srArpreqDestroy request }, .idle,
      accesses ++ [.destroy request]⟩ := by
  obtain ⟨off, live⟩ := h.thread
  set t : Sr := { s with cache := s.cache.srArpreqDestroy request }
  have inv : QueueInv t :=
    h.recorded.queue.sublist List.eraseP_sublist rfl rfl (List.prefix_refl _)
  have shrinks : Shrinks s t := ⟨(List.eraseP_sublist.map _).subset, rfl, rfl⟩
  exact ⟨(h.recorded.shrinks inv shrinks).destroy live (off.shrinks shrinks), trivial⟩

theorem HandleInv.resume {s t : Threads} (h : HandleInv s) (hstep : s.resume env = some t) :
    HandleInv t := by
  obtain ⟨sr, packet, accesses⟩ := s
  cases packet with
  | idle => cases hstep
  | missed buf nextHop =>
    obtain rfl := Option.some.inj hstep
    exact h.enqueue
  | holding request => exact h.visit hstep
  | givingUp request now => exact h.destroy hstep
  | resolving req _ _ _ _ => exact h.replay hstep
  | replayed request =>
    obtain rfl := Option.some.inj hstep
    exact h.destroyReplayed
  | undefined => cases hstep

theorem handleInv_step {s t : Threads} {turn : Turn} (h : HandleInv s)
    (hstep : Guarded (Threads.Step env) (SparesHeld env) s turn t) : HandleInv t := by
  obtain ⟨hstep, spares⟩ := hstep
  cases turn with
  | frame buf interface => exact h.frame hstep
  | resume => exact h.resume hstep
  | sweep => exact h.sweep spares hstep

/-! ## The threads -/

/-- The packet thread goes on with an access to the request it holds. -/
theorem resume_accesses {s t : Threads} {request : Nat} (held : request ∈ s.packet.held)
    (hstep : s.resume env = some t) :
    ∃ access : Access, access.request = request ∧ t.accesses = s.accesses ++ [access] := by
  obtain ⟨sr, packet, accesses⟩ := s
  unfold Threads.resume at hstep
  cases packet <;> try cases held
  · dsimp only at hstep
    refine ⟨.use request, rfl, ?_⟩
    split at hstep
    · rw [← Option.some.inj hstep]
    · obtain ⟨begun, -, rfl⟩ := Option.map_eq_some_iff.mp hstep
      rfl
  · dsimp only at hstep
    refine ⟨.destroy request, rfl, ?_⟩
    split at hstep <;> rw [← Option.some.inj hstep]

/-- A sweep that gives up the request the packet thread holds makes the next
access of the packet thread one to a destroyed request. -/
theorem HandleInv.not_valid {s t u : Threads} (h : HandleInv s)
    (takes : ¬ SparesHeld env s .sweep) (swept : Threads.Step env s .sweep t)
    (resumed : Threads.Step env t .resume u) : ¬ HandlesValid u.accesses := by
  obtain ⟨sr, packet, accesses⟩ := s
  obtain ⟨request, held, givesUp⟩ :
      ∃ request ∈ packet.held,
        sweepGivesUp env request (sr.ticks + 1) sr.cache.requests = true := by
    simpa [SparesHeld] using takes
  have queued : request ∈ sr.queued := by
    have thread := h.thread
    cases packet <;> cases held <;> exact thread
  have swept : Threads.sweep env ⟨sr, packet, accesses⟩ = some t := swept
  have turn : (sr.srArpcacheTimeout env).map (fun sr' : Sr => (⟨sr', packet, accesses ++
      (sr'.trace.drop sr.trace.length).filterMap Event.access?⟩ : Threads)) = some t := by
    cases packet <;> cases held <;> exact swept
  obtain ⟨sr', timeout, rfl⟩ := Option.map_eq_some_iff.mp turn
  obtain ⟨new, -, -, accessed, -, outcome⟩ := timeout_swept h.recorded timeout
  have destroyed := outcome request queued
  rw [if_pos givesUp, ← accessed] at destroyed
  obtain ⟨access, rfl, after⟩ := resume_accesses held resumed
  intro valid
  rw [after] at valid
  exact (justified_snoc.mp valid).2 (List.mem_append_right _ destroyed)

/-- **The handles of ARP requests**: as long as no sweep gives up the request
the packet thread holds, every access in every order of turns is valid. After a
sweep that does, the next access of the packet thread is not. -/
theorem request_handles_valid {ifList : List SrIf} {routingTable : List SrRt} {turns : List Turn}
    {s : Threads} (h : Run (Guarded (Threads.Step env) (SparesHeld env))
      (.start ifList routingTable) turns s) :
    HandlesValid s.accesses ∧
      ∀ t u, ¬ SparesHeld env s .sweep → Threads.Step env s .sweep t →
        Threads.Step env t .resume u → ¬ HandlesValid u.accesses := by
  have inv : HandleInv s :=
    Run.invariant HandleInv (handleInv_start ifList routingTable) handleInv_step h
  exact ⟨inv.recorded.valid, fun t u takes swept resumed => inv.not_valid takes swept resumed⟩

instance (s : Threads) (turn : Turn) : Decidable (SparesHeld env s turn) :=
  match turn with
  | .sweep => inferInstanceAs (Decidable (∀ request ∈ s.packet.held,
      sweepGivesUp env request (s.sr.ticks + 1) s.sr.cache.requests = false))
  | .frame _ _ | .resume => inferInstanceAs (Decidable True)

/-- The state after a list of turns, if they meet the condition. -/
def Threads.takeSparing (env : Env) (s : Threads) (turns : List Turn) : Option Threads :=
  turns.foldlM (fun s turn => if decide (SparesHeld env s turn) then s.take env turn else none) s

theorem Threads.run_takeSparing {s t : Threads} {turns : List Turn}
    (h : s.takeSparing env turns = some t) :
    Run (Guarded (Threads.Step env) (SparesHeld env)) s turns t :=
  run_foldlM _ (fun _ _ _ spares hstep => ⟨hstep, of_decide_eq_true spares⟩) h

/-- The threads of a router with two interfaces. -/
def twoThreads : Threads := .start twoPorts.ifList twoPorts.routingTable

/-- A packet is queued and its next hop does not answer; a second packet for
the same next hop joins the request after its fifth broadcast. -/
def fiveBroadcasts : List Turn :=
  [.frame (udpFrame (.local 1) 1) eth0, .resume, .resume, .sweep, .sweep, .sweep, .sweep,
    .frame (udpFrame (.local 1) 2) eth0, .resume]

/-- The four sweeps broadcast, and are harmless; the fifth gives the request up
while the packet thread holds it for the second packet. -/
theorem request_handles_valid_fiveBroadcasts :
    ∃ s t u, Run (Guarded (Threads.Step .counting) (SparesHeld .counting)) twoThreads
        fiveBroadcasts s ∧ HandlesValid s.accesses ∧
      Threads.Step .counting s .sweep t ∧ Threads.Step .counting t .resume u ∧
      ¬ HandlesValid u.accesses := by
  have orders : ∃ s, twoThreads.takeSparing .counting fiveBroadcasts = some s ∧
      ¬ SparesHeld .counting s .sweep ∧ ∃ t, s.take .counting .sweep = some t ∧
        (t.take .counting .resume).isSome = true := by
    decide +kernel
  obtain ⟨s, hs, takes, t, swept, goesOn⟩ := orders
  obtain ⟨u, resumed⟩ := Option.isSome_iff_exists.mp goesOn
  have hrun := Threads.run_takeSparing hs
  obtain ⟨valid, after⟩ := request_handles_valid hrun
  exact ⟨s, t, u, hrun, valid, swept, resumed, after t u takes swept resumed⟩

/-- In other orders of turns a request is used after it was destroyed, or
destroyed twice. -/
theorem handles_not_valid :
    (∃ s, Run (Threads.Step .counting) twoThreads (fiveBroadcasts ++ [.sweep, .resume]) s ∧
      ∃ before, s.accesses = before ++ [.destroy 0, .use 0]) ∧
    (∃ s, Run (Threads.Step .counting) twoThreads
        (fiveBroadcasts ++ [.resume, .sweep, .resume]) s ∧
      ∃ before, s.accesses = before ++ [.destroy 0, .destroy 0]) ∧
    ¬ ∀ (env : Env) (ifList : List SrIf) (routingTable : List SrRt) (turns : List Turn)
      (s : Threads), Run (Threads.Step env) (.start ifList routingTable) turns s →
        HandlesValid s.accesses := by
  have late : ∃ s, twoThreads.takeAll .counting (fiveBroadcasts ++ [.sweep, .resume]) = some s ∧
      s.accesses = List.replicate 8 (.use 0) ++ [.destroy 0, .use 0] := by
    decide +kernel
  have twice : ∃ s, twoThreads.takeAll .counting
        (fiveBroadcasts ++ [.resume, .sweep, .resume]) = some s ∧
      s.accesses = List.replicate 9 (.use 0) ++ [.destroy 0, .destroy 0] := by
    decide +kernel
  obtain ⟨s, hs, accesses⟩ := late
  obtain ⟨t, ht, accesses'⟩ := twice
  refine ⟨⟨s, Threads.run_takeAll hs, _, accesses⟩, ⟨t, Threads.run_takeAll ht, _, accesses'⟩,
    fun always => ?_⟩
  have valid := always _ _ _ _ s (Threads.run_takeAll hs)
  rw [accesses] at valid
  exact valid (List.replicate 8 (.use 0) ++ [.destroy 0]) (.use 0) [] (by simp)
    (List.mem_append_right _ List.mem_cons_self)

end NetLabs.Router
