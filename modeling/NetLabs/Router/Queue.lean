/-
NetLabs.Router.Queue — the shape of the ARP request queue.

Between moves no two requests on the queue have the same IP or the same
address, none is without packets, and what a packet waits for was given to
`sr_arpcache_queuereq` with it. A move either changes the retry fields of a
request, which the shape does not mention, or takes a request off the queue
(`QueueInv.sublist`, `QueueInv.update`); `enqueue_cases` says what queueing a
packet does.
-/
import NetLabs.Router.Steps
import Mathlib.Data.List.Flatten
import Mathlib.Data.List.Nodup

namespace NetLabs.Router

open NetLabs.Lib ArpCache

variable {env : Env}

/-! ## Taking a request off the queue -/

/-- What `find?` finds is what `eraseP` takes out. -/
theorem split_of_find? {α : Type} {p : α → Bool} {l : List α} {a : α} (h : l.find? p = some a) :
    ∃ before after, l = before ++ a :: after ∧ l.eraseP p = before ++ after ∧ p a = true ∧
      ∀ x ∈ before, p x = false := by
  obtain ⟨pa, before, after, rfl, none⟩ := List.find?_eq_some_iff_append.mp h
  have none' : ∀ x ∈ before, p x = false := by
    intro x hx
    simpa using none x hx
  refine ⟨before, after, rfl, ?_, pa, none'⟩
  rw [List.eraseP_append_right _ fun x hx => by simp [none' x hx], List.eraseP_cons_of_pos pa]

/-- Where keys are distinct, an element is found by its key. -/
theorem find?_of_mem {α κ : Type} [DecidableEq κ] {key : α → κ} {l : List α} {a : α}
    (distinct : (l.map key).Nodup) (h : a ∈ l) : l.find? (key · = key a) = some a := by
  cases found : l.find? (key · = key a) with
  | none => simpa using List.find?_eq_none.mp found a h
  | some other =>
    have same : key other = key a := by simpa using List.find?_some found
    rw [List.inj_on_of_nodup_map distinct (List.mem_of_find?_eq_some found) h same]

/-- Where keys are distinct, the other elements have other keys. -/
theorem key_ne_of_split {α κ : Type} {key : α → κ} {before after : List α} {a : α}
    (distinct : ((before ++ a :: after).map key).Nodup) :
    ∀ x ∈ before ++ after, key x ≠ key a := by
  have twice := (List.perm_middle.map key).nodup_iff.mp distinct
  rw [List.map_cons, List.nodup_cons] at twice
  exact fun x hx same => twice.1 (same ▸ List.mem_map_of_mem hx)

/-- The request at an address that is on the queue. -/
theorem deref_of_mem {cache : ArpCache} (distinct : (cache.requests.map ArpReq.addr).Nodup)
    {req : ArpReq} (h : req ∈ cache.requests) : cache.deref req.addr = some req :=
  find?_of_mem distinct h

/-- The request for an IP that is on the queue. -/
theorem findReq_of_mem {cache : ArpCache} (distinct : (cache.requests.map ArpReq.ip).Nodup)
    {req : ArpReq} (h : req ∈ cache.requests) : cache.findReq req.ip = some req :=
  find?_of_mem distinct h

/-- The requests in front of one and behind it have other addresses. -/
theorem addr_ne_of_split {before after : List ArpReq} {req : ArpReq}
    (distinct : ((before ++ req :: after).map ArpReq.addr).Nodup) :
    (∀ r ∈ before, r.addr ≠ req.addr) ∧ ∀ r ∈ after, r.addr ≠ req.addr := by
  have other := key_ne_of_split distinct
  constructor
  · exact fun r hr => other r (List.mem_append_left _ hr)
  · exact fun r hr => other r (List.mem_append_right _ hr)

/-- Only the request at the address changes. -/
theorem updateReq_split {cache : ArpCache} {before after : List ArpReq} {req : ArpReq}
    (f : ArpReq → ArpReq) (split : cache.requests = before ++ req :: after)
    (other : (∀ r ∈ before, r.addr ≠ req.addr) ∧ ∀ r ∈ after, r.addr ≠ req.addr) :
    (cache.updateReq req.addr f).requests = before ++ f req :: after := by
  have untouched : ∀ l : List ArpReq, (∀ r ∈ l, r.addr ≠ req.addr) →
      l.map (fun r => if r.addr = req.addr then f r else r) = l := by
    intro l hl
    exact (List.map_congr_left fun r hr => if_neg (hl r hr)).trans (List.map_id' l)
  rw [ArpCache.updateReq, split, List.map_append, List.map_cons, if_pos rfl,
    untouched before other.1, untouched after other.2]

/-! ## The invariant -/

/-- The packets of the requests on the queue. -/
def Sr.waiting (sr : Sr) : List SrPacket := sr.cache.requests.flatMap ArpReq.packets

theorem Sr.mem_waiting {sr : Sr} {req : ArpReq} {p : SrPacket} (mine : req ∈ sr.cache.requests)
    (hp : p ∈ req.packets) : p ∈ sr.waiting :=
  List.mem_flatMap.mpr ⟨req, mine, hp⟩

/-- The shape of the queue. -/
structure QueueInv (sr : Sr) : Prop where
  ips : (sr.cache.requests.map ArpReq.ip).Nodup
  addrs : (sr.cache.requests.map ArpReq.addr).Nodup
  fresh : ∀ req ∈ sr.cache.requests, req.addr < sr.allocations
  nonempty : ∀ req ∈ sr.cache.requests, req.packets ≠ []
  routed : ∀ p ∈ sr.waiting, ∃ node ∈ sr.routingTable, p.iface = node.interface
  long : ∀ p ∈ sr.waiting, ipHdrSize + etherHdrSize ≤ p.buf.length
  asked : ∀ req ∈ sr.cache.requests, ∀ p ∈ req.packets, .queued req.ip p ∈ sr.trace

theorem queueInv_init (ifList : List SrIf) (routingTable : List SrRt) :
    QueueInv (srInit ifList routingTable) where
  ips := .nil
  addrs := .nil
  fresh := nofun
  nonempty := nofun
  routed := nofun
  long := nofun
  asked := nofun

/-- Requests leave the queue. -/
theorem QueueInv.sublist {s t : Sr} (h : QueueInv s)
    (queue : t.cache.requests.Sublist s.cache.requests) (alloc : t.allocations = s.allocations)
    (table : t.routingTable = s.routingTable) (trace : s.trace <+: t.trace) : QueueInv t := by
  have waiting : t.waiting.Sublist s.waiting := queue.flatMap _
  constructor
  · exact h.ips.sublist (queue.map _)
  · exact h.addrs.sublist (queue.map _)
  · exact fun req hreq => alloc ▸ h.fresh req (queue.subset hreq)
  · exact fun req hreq => h.nonempty req (queue.subset hreq)
  · exact fun p hp => table ▸ h.routed p (waiting.subset hp)
  · exact fun p hp => h.long p (waiting.subset hp)
  · exact fun req hreq p hp => trace.subset (h.asked req (queue.subset hreq) p hp)

/-- An event changes nothing about the queue. -/
theorem QueueInv.log {s : Sr} (h : QueueInv s) (e : Event) : QueueInv (s.log e) :=
  h.sublist (.refl _) rfl rfl (List.prefix_append _ _)

/-- Requests that change keep their packets. -/
theorem waiting_map {s t : Sr} {f : ArpReq → ArpReq} (keep : ∀ r, (f r).packets = r.packets)
    (queue : t.cache.requests = s.cache.requests.map f) : t.waiting = s.waiting := by
  rw [Sr.waiting, Sr.waiting, queue, List.flatMap_map]
  congr 1
  funext r
  exact keep r

/-- Requests change in their retry fields. -/
theorem QueueInv.update {s t : Sr} (h : QueueInv s) (f : ArpReq → ArpReq)
    (keep : ∀ r, (f r).addr = r.addr ∧ (f r).ip = r.ip ∧ (f r).packets = r.packets)
    (queue : t.cache.requests = s.cache.requests.map f) (alloc : t.allocations = s.allocations)
    (table : t.routingTable = s.routingTable) (trace : s.trace <+: t.trace) : QueueInv t := by
  have waiting : t.waiting = s.waiting := waiting_map (fun r => (keep r).2.2) queue
  have ips : t.cache.requests.map ArpReq.ip = s.cache.requests.map ArpReq.ip := by
    rw [queue, List.map_map]
    exact List.map_congr_left fun r _ => (keep r).2.1
  have addrs : t.cache.requests.map ArpReq.addr = s.cache.requests.map ArpReq.addr := by
    rw [queue, List.map_map]
    exact List.map_congr_left fun r _ => (keep r).1
  constructor
  · exact ips ▸ h.ips
  · exact addrs ▸ h.addrs
  · intro req hreq
    rw [queue] at hreq
    obtain ⟨r, hr, rfl⟩ := List.mem_map.mp hreq
    rw [(keep r).1, alloc]
    exact h.fresh r hr
  · intro req hreq
    rw [queue] at hreq
    obtain ⟨r, hr, rfl⟩ := List.mem_map.mp hreq
    rw [(keep r).2.2]
    exact h.nonempty r hr
  · rw [waiting, table]
    exact h.routed
  · rw [waiting]
    exact h.long
  · intro req hreq p hp
    rw [queue] at hreq
    obtain ⟨r, hr, rfl⟩ := List.mem_map.mp hreq
    rw [(keep r).2.2] at hp
    rw [(keep r).2.1]
    exact trace.subset (h.asked r hr p hp)

theorem queueInv_move {s t : Sr} (h : QueueInv s) (hmove : Move env s t) : QueueInv t := by
  cases hmove with
  | quiet => exact h.log _
  | table cache ticks queue => exact h.sublist (queue ▸ .refl _) rfl rfl (List.prefix_refl _)
  | @broadcast req _ _ live due few first found =>
    refine h.update _ (fun r => ?_) rfl rfl rfl (List.prefix_append _ _)
    dsimp only
    split <;> exact ⟨rfl, rfl, rfl⟩
  | giveUp =>
    refine h.sublist List.eraseP_sublist rfl rfl ?_
    rw [Sr.giveUp, List.append_assoc]
    exact List.prefix_append _ _
  | resolve =>
    exact h.sublist (List.eraseP_sublist.trans List.eraseP_sublist) rfl rfl
      (List.prefix_append _ _)
  | unlink =>
    exact h.sublist (List.eraseP_sublist.trans List.eraseP_sublist) rfl rfl (List.prefix_refl _)

/-- `process_arpreq` dereferences no NULL pointer if every route names an
interface. -/
theorem processArpreq_total {s : Sr} (inv : QueueInv s) (ports : s.Ported) {req : ArpReq}
    (live : req ∈ s.cache.requests) : ∃ t, s.processArpreq env req.addr = some t := by
  unfold Sr.processArpreq
  rw [deref_of_mem inv.addrs live]
  dsimp only
  split
  · split
    · cases first : req.packets.head? with
      | none => exact (inv.nonempty req live (List.head?_eq_none_iff.mp first)).elim
      | some packet =>
        have waits : packet ∈ s.waiting := Sr.mem_waiting live (List.mem_of_mem_head? first)
        obtain ⟨node, route, same⟩ := inv.routed packet waits
        obtain ⟨intf, found⟩ := ports node route
        have found : ({ s with ticks := s.ticks + 2 } : Sr).srGetInterface packet.iface =
            some intf := same ▸ found
        dsimp only
        rw [found]
        exact ⟨_, rfl⟩
    · rw [Sr.unreachableLoop_eq]
      exact ⟨_, rfl⟩
  · exact ⟨_, rfl⟩

/-- Without a request its packets wait no more. -/
theorem waiting_without {sr : Sr} {before after : List ArpReq} {req : ArpReq}
    (split : sr.cache.requests = before ++ req :: after) :
    sr.waiting.Perm (req.packets ++ (before ++ after).flatMap ArpReq.packets) := by
  rw [Sr.waiting, split, List.flatMap_append, List.flatMap_cons, List.flatMap_append]
  exact List.perm_append_comm_assoc _ _ _

/-- What `sr_arpcache_insert` unlinked, `sr_arpreq_destroy` does not find on
the queue. -/
theorem unlink_split {sr : Sr} {req : ArpReq} (h : QueueInv sr)
    (live : sr.cache.findReq req.ip = some req) :
    ∃ before after, sr.cache.requests = before ++ req :: after ∧
      (unlinkIp req.ip sr.cache.requests).eraseP (·.addr = req.addr) = before ++ after := by
  obtain ⟨before, after, split, unlinked, -, -⟩ := split_of_find? live
  refine ⟨before, after, split, ?_⟩
  have absent : ∀ r ∈ before ++ after, r.addr ≠ req.addr := key_ne_of_split (split ▸ h.addrs)
  rw [unlinkIp, unlinked]
  exact List.eraseP_of_forall_not fun r hr => by simpa using absent r hr

/-! ## Queueing a packet -/

theorem pushPacket_append {ip : UInt32} {before after : List ArpReq} {req : ArpReq}
    (packet : SrPacket) (none : ∀ r ∈ before, r.ip ≠ ip) (found : req.ip = ip) :
    pushPacket ip packet (before ++ req :: after) =
      before ++ push req packet :: after := by
  induction before with
  | nil => rw [List.nil_append, pushPacket, if_pos found, List.nil_append]
  | cons r before ih =>
    rw [List.cons_append, pushPacket, if_neg (none r List.mem_cons_self),
      ih fun x hx => none x (List.mem_cons_of_mem r hx), List.cons_append]

/-- A frame with an IP header is not empty. -/
theorem nonempty_of_long {buf : List UInt8} (long : ipHdrSize + etherHdrSize ≤ buf.length) :
    buf.length ≠ 0 := by
  simp only [ipHdrSize, etherHdrSize] at long
  omega

/-- The packet `enqueue` makes. -/
def Sr.newPacket (sr : Sr) (buf : List UInt8) (iface : IfName) : SrPacket :=
  { addr := sr.allocations + 1, buf, iface }

theorem trace_enqueue (sr : Sr) (ip : UInt32) (buf : List UInt8) (iface : IfName) :
    (sr.enqueue ip buf iface).1.trace = sr.trace ++ [.queued ip (sr.newPacket buf iface)] :=
  rfl

/-- The state after a packet for `ip` was queued and the queue became
`requests`. -/
def Sr.queue (sr : Sr) (ip : UInt32) (packet : SrPacket) (requests : List ArpReq) : Sr :=
  { sr with
    cache := { sr.cache with requests }
    allocations := sr.allocations + 2
    trace := sr.trace ++ [.queued ip packet] }

/-- Queueing a packet makes a request for its next hop or adds to the one
there is. -/
theorem enqueue_cases (sr : Sr) (ip : UInt32) {buf : List UInt8} (iface : IfName)
    (nonempty : buf.length ≠ 0) :
    ((∀ req ∈ sr.cache.requests, req.ip ≠ ip) ∧
      sr.enqueue ip buf iface =
        (sr.queue ip (sr.newPacket buf iface)
          ({ addr := sr.allocations, ip, sent := 0, timesSent := 0
             packets := [sr.newPacket buf iface] } :: sr.cache.requests), sr.allocations)) ∨
      ∃ before req after, sr.cache.requests = before ++ req :: after ∧ req.ip = ip ∧
        sr.enqueue ip buf iface =
          (sr.queue ip (sr.newPacket buf iface)
            (before ++ push req (sr.newPacket buf iface) :: after),
            req.addr) := by
  unfold Sr.enqueue ArpCache.srArpcacheQueuereq
  cases found : sr.cache.findReq ip with
  | none =>
    left
    have absent : ∀ req ∈ sr.cache.requests, req.ip ≠ ip := by
      intro req hreq
      simpa using List.find?_eq_none.mp found req hreq
    refine ⟨absent, ?_⟩
    dsimp only
    rw [if_pos nonempty, pushPacket, if_pos rfl]
    rfl
  | some req =>
    right
    obtain ⟨before, after, split, -, hip, none⟩ := split_of_find? found
    have hip : req.ip = ip := by simpa using hip
    refine ⟨before, req, after, split, hip, ?_⟩
    dsimp only
    rw [if_pos nonempty, split, pushPacket_append _ (fun r hr => by simpa using none r hr) hip]
    rfl

theorem waiting_enqueue {sr : Sr} {ip : UInt32} {buf : List UInt8} {iface : IfName}
    (nonempty : buf.length ≠ 0) :
    (sr.enqueue ip buf iface).1.waiting.Perm (sr.newPacket buf iface :: sr.waiting) := by
  rcases enqueue_cases sr ip iface nonempty with ⟨-, eq⟩ | ⟨before, req, after, split, -, eq⟩
  · rw [eq]
    simp [Sr.waiting, Sr.queue]
  · rw [eq]
    simp only [Sr.waiting, Sr.queue, split, List.flatMap_append, List.flatMap_cons]
    exact List.perm_middle

/-- A packet is queued: each request was on the queue, or it has the packet. -/
theorem QueueInv.queue {s : Sr} (h : QueueInv s) {ip : UInt32} {packet : SrPacket}
    {requests : List ArpReq} (route : ∃ node ∈ s.routingTable, packet.iface = node.interface)
    (long : ipHdrSize + etherHdrSize ≤ packet.buf.length)
    (waiting : (s.queue ip packet requests).waiting.Perm (packet :: s.waiting))
    (ips : (requests.map ArpReq.ip).Nodup) (addrs : (requests.map ArpReq.addr).Nodup)
    (member : ∀ r ∈ requests, r ∈ s.cache.requests ∨
      (r.addr ≤ s.allocations ∧ packet ∈ r.packets ∧
        ∀ p ∈ r.packets, (p = packet ∧ r.ip = ip) ∨ .queued r.ip p ∈ s.trace)) :
    QueueInv (s.queue ip packet requests) := by
  have grows : s.allocations < s.allocations + 2 := Nat.lt_add_of_pos_right (by decide)
  constructor
  · exact ips
  · exact addrs
  · intro r hr
    rcases member r hr with old | ⟨small, -, -⟩
    · exact Nat.lt_trans (h.fresh r old) grows
    · exact Nat.lt_of_le_of_lt small grows
  · intro r hr
    rcases member r hr with old | ⟨-, has, -⟩
    · exact h.nonempty r old
    · exact List.ne_nil_of_mem has
  · intro p hp
    rcases List.mem_cons.mp (waiting.subset hp) with rfl | hp
    · exact route
    · exact h.routed p hp
  · intro p hp
    rcases List.mem_cons.mp (waiting.subset hp) with rfl | hp
    · exact long
    · exact h.long p hp
  · intro r hr p hp
    rcases member r hr with old | ⟨-, -, asked⟩
    · exact List.mem_append_left _ (h.asked r old p hp)
    · rcases asked p hp with ⟨rfl, rfl⟩ | before
      · exact List.mem_append_right _ List.mem_cons_self
      · exact List.mem_append_left _ before

theorem queueInv_enqueue {s : Sr} {buf : List UInt8} {nextHop : SrRt} (h : QueueInv s)
    (route : nextHop ∈ s.routingTable) (long : ipHdrSize + etherHdrSize ≤ buf.length) :
    QueueInv (s.enqueue nextHop.gw buf nextHop.interface).1 := by
  have nonempty : buf.length ≠ 0 := nonempty_of_long long
  have waiting : (s.enqueue nextHop.gw buf nextHop.interface).1.waiting.Perm
      (s.newPacket buf nextHop.interface :: s.waiting) := waiting_enqueue nonempty
  rcases enqueue_cases s nextHop.gw nextHop.interface nonempty with
    ⟨absent, eq⟩ | ⟨before, req, after, split, hip, eq⟩
  · rw [eq] at waiting ⊢
    refine h.queue ⟨nextHop, route, rfl⟩ long waiting ?_ ?_ ?_
    · refine List.nodup_cons.mpr ⟨fun hmem => ?_, h.ips⟩
      obtain ⟨req, hreq, hip⟩ := List.mem_map.mp hmem
      exact absent req hreq hip
    · refine List.nodup_cons.mpr ⟨fun hmem => ?_, h.addrs⟩
      obtain ⟨req, hreq, haddr⟩ := List.mem_map.mp hmem
      exact Nat.ne_of_lt (h.fresh req hreq) haddr
    · intro r hr
      rcases List.mem_cons.mp hr with rfl | old
      · refine .inr ⟨Nat.le_refl _, List.mem_cons_self, fun p hp => ?_⟩
        exact .inl ⟨List.mem_singleton.mp hp, rfl⟩
      · exact .inl old
  · rw [eq] at waiting ⊢
    have old : ∀ r ∈ before ++ req :: after, r ∈ s.cache.requests := fun r hr => split ▸ hr
    have mine : req ∈ s.cache.requests := old req (by simp)
    refine h.queue ⟨nextHop, route, rfl⟩ long waiting ?_ ?_ ?_
    · have ips := h.ips
      rw [split, List.map_append, List.map_cons] at ips
      rw [List.map_append, List.map_cons]
      exact ips
    · have addrs := h.addrs
      rw [split, List.map_append, List.map_cons] at addrs
      rw [List.map_append, List.map_cons]
      exact addrs
    · intro r hr
      rcases List.mem_append.mp hr with hr | hr
      · exact .inl (old r (List.mem_append_left _ hr))
      · rcases List.mem_cons.mp hr with rfl | hr
        · refine .inr ⟨Nat.le_of_lt (h.fresh req mine), List.mem_cons_self, fun p hp => ?_⟩
          rcases List.mem_cons.mp hp with rfl | hp
          · exact .inl ⟨rfl, hip⟩
          · exact .inr (h.asked req mine p hp)
        · exact .inl (old r (List.mem_append_right _ (List.mem_cons_of_mem _ hr)))

/-- The shape holds in every state of every run. -/
theorem queueInv_run {s t : Sr} {ops : List Op} (start : QueueInv s)
    (h : Run (Step env) s ops t) : QueueInv t :=
  run_invariant QueueInv queueInv_move queueInv_enqueue start h

end NetLabs.Router
