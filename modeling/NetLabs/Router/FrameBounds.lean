/-
NetLabs.Router.FrameBounds — does frame processing stay inside the frame?

`sr_handlepacket` reads the ethertype before anything looks at the length, and
`send_fabricated_icmp_packet` quotes 28 bytes of a datagram that may have
20. `SafeOp` says which operations reach neither; the checked router
does what the router does exactly then, and leaves a buffer otherwise
(`exact_apply`).
-/
import NetLabs.Router.Checked

namespace NetLabs.Router

open NetLabs.Lib ArpCache

variable {env : Env}

/-! ## Accesses inside the frame -/

theorem Field.checked_ok {f : Field} {buf : List UInt8} (fits : f.off + f.size ≤ buf.length) :
    f.checked buf = .ok () :=
  Access.inside_ok fits

theorem Env.read_ok {f : Field} {buf : List UInt8} (fits : f.off + f.size ≤ buf.length) :
    env.read f buf = .ok (env.get f buf) := by
  rw [Env.read, Field.checked_ok fits]
  rfl

theorem Field.write_ok {f : Field} {bs buf : List UInt8}
    (fits : f.off + bs.length ≤ buf.length) : f.write bs buf = .ok (f.set bs buf) := by
  rw [Field.write, Access.inside_ok fits]
  rfl

theorem recomputeIpSumChecked_ok {packet : List UInt8}
    (long : ipHdrSize + etherHdrSize ≤ packet.length) :
    recomputeIpSumChecked env packet = .ok (recomputeIpSum env packet) := by
  simp only [ipHdrSize, etherHdrSize] at long
  unfold recomputeIpSumChecked
  simp (disch := simp; omega) only [Field.write_ok, Env.read_ok, Access.ok_bind]
  rfl

theorem recomputeIcmpSumChecked_ok {packet : List UInt8}
    (long : icmpHdrSize + etherHdrSize + ipHdrSize ≤ packet.length) :
    recomputeIcmpSumChecked env packet = .ok (recomputeIcmpSum env packet) := by
  simp only [icmpHdrSize, etherHdrSize, ipHdrSize] at long
  have fits : icmpHdr.off + (packet.length - etherHdrSize - ipHdrSize) ≤ packet.length := by
    simp only [etherHdrSize, ipHdrSize]
    omega
  unfold recomputeIcmpSumChecked
  simp (disch := simp; omega) only [Field.write_ok, Access.ok_bind, Field.length_set]
  rw [Access.inside_ok (by rwa [Field.length_set]), recomputeIcmpSum, Field.length_set]
  rfl

/-! ## ICMP messages in bounds -/

/-- What is copied into a message is read in bounds, unless it is quoted from a
frame that ends too early. -/
theorem exact_icmpPayload {packet : List UInt8} {type : UInt8}
    (room : icmpHdrSize + etherHdrSize + ipHdrSize ≤ sendingLength packet type) :
    Access.Exact (type ≠ 0 → ipHdr.off + icmpDataSize ≤ packet.length)
      (icmpPayloadChecked env packet type) (some (icmpPayload env packet type)) := by
  simp only [icmpHdrSize, etherHdrSize, ipHdrSize] at room
  unfold icmpPayloadChecked icmpPayload
  dsimp only
  by_cases echo : type = 0
  · have fits : icmpHdr.off + (sendingLength packet type - etherHdrSize - ipHdrSize) ≤
        (List.replicate (sendingLength packet type) (0 : UInt8)).length := by
      simp only [List.length_replicate, etherHdrSize, ipHdrSize]
      omega
    rw [if_pos echo, if_pos echo, Access.inside_ok fits]
    exact (Access.exact_ok _).congr ⟨fun _ => trivial, fun _ error => absurd echo error⟩
  · have copied : icmpData.write (peek env.beyond packet ipHdr.off icmpDataSize)
        (List.replicate (sendingLength packet type) (0 : UInt8)) =
        .ok (icmpData.set (peek env.beyond packet ipHdr.off icmpDataSize)
          (List.replicate (sendingLength packet type) (0 : UInt8))) :=
      Field.write_ok (by simp [icmpDataSize]; omega)
    rw [if_neg echo, if_neg echo, copied]
    have read : Access.Exact (ipHdr.off + icmpDataSize ≤ packet.length)
        (Access.inside packet ipHdr.off icmpDataSize) (some ()) :=
      Access.exact_inside (by decide)
    refine (read.bind_ok ?_).congr ⟨fun h => h echo, fun h _ => h⟩
    rfl

theorem icmpSumChecked_ok {packet icmp : List UInt8} {type : UInt8}
    (room : icmpHdrSize + etherHdrSize + ipHdrSize ≤ icmp.length)
    (echo : type = 0 → packet.length = icmp.length) :
    icmpSumChecked env packet icmp type =
      .ok (if type = 0 then
        cksum env.endian
          (peek env.beyond icmp icmpHdr.off (packet.length - etherHdrSize - ipHdrSize))
      else cksum env.endian (env.get icmpHdr icmp)) := by
  simp only [icmpHdrSize, etherHdrSize, ipHdrSize] at room
  unfold icmpSumChecked
  by_cases h : type = 0
  · rw [if_pos h, if_pos h, echo h, Access.inside_ok]
    · rfl
    · simp only [etherHdrSize, ipHdrSize]
      omega
  · rw [if_neg h, if_neg h]
    simp (disch := simp; omega) only [Env.read_ok, Access.ok_bind]
    rfl

theorem exact_icmpBuffer {packet : List UInt8} {type : UInt8} (code : UInt8)
    (room : icmpHdrSize + etherHdrSize + ipHdrSize ≤ sendingLength packet type) :
    Access.Exact (type ≠ 0 → ipHdr.off + icmpDataSize ≤ packet.length)
      (icmpBufferChecked env packet type code) (some (icmpBuffer env packet type code)) := by
  have size : (icmpPayload env packet type).length = sendingLength packet type :=
    length_icmpPayload (le_trans (by decide) room)
  have summed : icmpSumChecked env packet (icmpPayload env packet type) type = .ok _ :=
    icmpSumChecked_ok (by rwa [size]) fun echo => by rw [size, sendingLength, if_pos echo]
  unfold icmpBufferChecked
  refine (exact_icmpPayload room).bind_ok ?_
  simp only [icmpHdrSize, etherHdrSize, ipHdrSize, ← size] at room
  rw [summed, Access.ok_bind, Field.write_ok (by simp; omega), Access.ok_bind,
    Field.write_ok (by simp; omega), Access.ok_bind, Field.write_ok (by simp; omega),
    Access.ok_bind, Field.write_ok (by simp; omega), icmpBuffer]

theorem ipBufferChecked_ok {packet icmp : List UInt8} (length : Nat) (srcIp : UInt32)
    (long : ipHdrSize + etherHdrSize ≤ packet.length)
    (room : ipHdrSize + etherHdrSize ≤ icmp.length) :
    ipBufferChecked env packet icmp length srcIp =
      .ok (ipBuffer env packet icmp length srcIp) := by
  simp only [ipHdrSize, etherHdrSize] at long room
  rw [ipBufferChecked, Env.read_ok (by simp; omega), Access.ok_bind,
    Field.write_ok (by simp; omega), Access.ok_bind, Field.write_ok (by simp; omega),
    Access.ok_bind, Field.write_ok (by simp; omega), Access.ok_bind,
    Field.write_ok (by simp; omega), Access.ok_bind, Field.write_ok (by simp; omega),
    Access.ok_bind, Env.read_ok (by simp; omega), Access.ok_bind,
    Field.write_ok (by simp; omega), ipBuffer]

theorem exact_fabricatedIcmp {packet : List UInt8} {type : UInt8} (code : UInt8) (out : SrIf)
    (destIntf : Option SrIf) (long : ipHdrSize + etherHdrSize ≤ packet.length)
    (room : icmpHdrSize + etherHdrSize + ipHdrSize ≤ sendingLength packet type) :
    Access.Exact (type ≠ 0 → ipHdr.off + icmpDataSize ≤ packet.length)
      (fabricatedIcmpChecked env packet type code out destIntf)
      (some (fabricatedIcmp env packet type code out destIntf)) := by
  have size : (icmpBuffer env packet type code).length = sendingLength packet type :=
    length_icmpBuffer code (le_trans (by decide) room)
  have header : ipHdrSize + etherHdrSize ≤ (icmpBuffer env packet type code).length := by
    rw [size]
    exact le_trans (by decide) room
  unfold fabricatedIcmpChecked
  refine (exact_icmpBuffer code room).bind_ok ?_
  rw [ipBufferChecked_ok _ _ long header, Access.ok_bind,
    recomputeIpSumChecked_ok (by rwa [length_ipBuffer]), Access.ok_bind]
  simp only [ipHdrSize, etherHdrSize] at long header
  rw [Env.read_ok (by simp [etherAddrLen]; omega), Access.ok_bind,
    Field.write_ok (by simp [etherAddrLen]; omega), Access.ok_bind,
    Field.write_ok (by simp [etherAddrLen]; omega), Access.ok_bind,
    Field.write_ok (by simp; omega), fabricatedIcmp_eq]

/-- A message is sent in bounds unless it quotes a frame that ends too
early. -/
theorem exact_sendFabricatedIcmp {sr : Sr} {cause : Cause} {packet : List UInt8}
    {gotOnIntf : IfName} {type : UInt8} (code : UInt8) (destIntf : Option SrIf)
    (long : ipHdrSize + etherHdrSize ≤ packet.length)
    (room : icmpHdrSize + etherHdrSize + ipHdrSize ≤ sendingLength packet type) :
    Access.Exact (sr.srGetInterface gotOnIntf ≠ none → type ≠ 0 →
        ipHdr.off + icmpDataSize ≤ packet.length)
      (sr.sendFabricatedIcmpPacketChecked env cause packet gotOnIntf type code destIntf)
      (sr.sendFabricatedIcmpPacket env cause packet gotOnIntf type code destIntf) := by
  unfold Sr.sendFabricatedIcmpPacketChecked Sr.sendFabricatedIcmpPacket
  cases found : sr.srGetInterface gotOnIntf with
  | none => exact Access.exact_abort.congr ⟨fun _ => trivial, fun _ some => absurd rfl some⟩
  | some out =>
    refine ((exact_fabricatedIcmp code out destIntf long room).bind_ok ?_).congr
      ⟨fun h => h nofun, fun h _ => h⟩
    rfl

/-! ## ARP requests in bounds -/

theorem arpRequestFrameChecked_ok (intf : SrIf) (ip : UInt32) :
    arpRequestFrameChecked intf ip = .ok (arpRequestFrame intf ip) := by
  unfold arpRequestFrameChecked arpRequestFrame
  dsimp only
  iterate 11
    rw [Field.write_ok (by simp [etherHdrSize, arpHdrSize, etherAddrLen]), Access.ok_bind]
  rw [Field.write_ok (by simp [etherHdrSize, arpHdrSize, etherAddrLen])]

/-- The interface a queued packet came in on is found only if all 28 bytes of
its datagram that are quoted then are there. -/
def Sr.Quotable (env : Env) (sr : Sr) (packet : SrPacket) : Prop :=
  sr.Matches env packet → ipHdr.off + icmpDataSize ≤ packet.buf.length

theorem quotable_iff (env : Env) {s t : Sr} (ifList : t.ifList = s.ifList) (packet : SrPacket) :
    t.Quotable env packet ↔ s.Quotable env packet := by
  rw [Sr.Quotable, Sr.Quotable, Sr.Matches, Sr.Matches, Sr.getInterfaceFromEth,
    Sr.getInterfaceFromEth, ifList]

/-- `process_arpreq` gives the request up, at the reading of the clock with this
index. -/
def ArpReq.GivesUp (env : Env) (ticks : Nat) (req : ArpReq) : Prop :=
  env.time ticks - req.sent ≥ 1 ∧ 5 ≤ req.timesSent

theorem exact_unreachableLoop (env : Env) (request : Nat) {packets : List SrPacket} (sr : Sr)
    (long : ∀ p ∈ packets, ipHdrSize + etherHdrSize ≤ p.buf.length) :
    Access.Exact (∀ p ∈ packets, sr.Quotable env p)
      (sr.unreachableLoopChecked env request packets) (sr.unreachableLoop env request packets) := by
  induction packets generalizing sr with
  | nil => exact (Access.exact_ok sr).congr ⟨fun _ => trivial, fun _ => List.forall_mem_nil _⟩
  | cons packet rest ih =>
    have whole : ipHdrSize + etherHdrSize ≤ packet.buf.length := long packet List.mem_cons_self
    have others := fun s => ih s fun p hp => long p (List.mem_cons_of_mem _ hp)
    rw [Sr.unreachableLoopChecked, Sr.unreachableLoop,
      Field.checked_ok (le_trans (by decide) whole), Access.ok_bind]
    cases matched : sr.getInterfaceFromEth (env.getMac etherDhost.off packet.buf) with
    | none =>
      refine (others (sr.log (.unmatched request packet))).congr ?_
      rw [List.forall_mem_cons]
      exact ⟨And.right, fun h => ⟨fun matches_ => absurd matched matches_, h⟩⟩
    | some sendingIntf =>
      obtain ⟨out, found⟩ := sr.srGetInterface_of_mem (List.mem_of_find?_eq_some matched)
      obtain ⟨e, sent⟩ : ∃ e, sr.sendFabricatedIcmpPacket env (.unreachable request packet)
          packet.buf sendingIntf.name 3 1 none = some (sr.log e) := by
        rw [Sr.sendFabricatedIcmpPacket, found]
        exact ⟨_, congrArg some (Sr.srSendPacket_eq _ _ _ _)⟩
      have first : Access.Exact _
          (sr.sendFabricatedIcmpPacketChecked env (.unreachable request packet) packet.buf
            sendingIntf.name 3 1 none) _ :=
        exact_sendFabricatedIcmp 1 none whole (room_error packet.buf (by decide))
      dsimp only
      rw [sent] at first
      rw [sent]
      refine (first.bind_some (others _)).congr ?_
      rw [List.forall_mem_cons]
      constructor
      · rintro ⟨quoted, later⟩
        refine ⟨fun _ _ => quoted ?_, later⟩
        rw [Sr.Matches, matched]
        exact Option.some_ne_none _
      · rintro ⟨quoted, later⟩
        have some : sr.srGetInterface sendingIntf.name ≠ none := by
          rw [found]
          exact Option.some_ne_none _
        exact ⟨fun _ => quoted some (by decide), later⟩

/-- `process_arpreq` stays in bounds unless it gives up a request and quotes a
frame that ends too early. -/
theorem exact_processArpreq {sr : Sr} {request : Nat}
    (long : ∀ p ∈ sr.waiting, ipHdrSize + etherHdrSize ≤ p.buf.length) :
    Access.Exact (∀ req, sr.cache.deref request = some req → req.GivesUp env sr.ticks →
        ∀ p ∈ req.packets, sr.Quotable env p)
      (sr.processArpreqChecked env request) (sr.processArpreq env request) := by
  unfold Sr.processArpreqChecked Sr.processArpreq
  cases live : sr.cache.deref request with
  | none => exact Access.exact_abort.bind_none.congr ⟨fun _ => trivial, fun _ => nofun⟩
  | some req =>
    have own : req.GivesUp env sr.ticks →
        (∀ p ∈ req.packets, ipHdrSize + etherHdrSize ≤ p.buf.length) ∧
        ((∀ r, some req = some r → r.GivesUp env sr.ticks → ∀ p ∈ r.packets, sr.Quotable env p) ↔
          ∀ p ∈ req.packets, sr.Quotable env p) := by
      intro gives
      constructor
      · intro p hp
        exact long p (Sr.mem_waiting (List.mem_of_find?_eq_some live) hp)
      · exact ⟨fun h => h req rfl gives, fun h r eq _ => Option.some.inj eq ▸ h⟩
    -- in the other cases no frame is touched
    have idle : ¬ req.GivesUp env sr.ticks →
        ((∀ r, some req = some r → r.GivesUp env sr.ticks → ∀ p ∈ r.packets, sr.Quotable env p) ↔
          True) := by
      intro stays
      exact ⟨fun _ => trivial, fun _ r eq gives => absurd (Option.some.inj eq ▸ gives) stays⟩
    rw [Access.deref_some, Access.ok_bind]
    dsimp only
    by_cases due : env.time sr.ticks - req.sent ≥ 1
    · rw [if_pos due, if_pos due]
      by_cases few : req.timesSent < 5
      · rw [if_pos few, if_pos few]
        refine Access.Exact.congr ?_ (idle fun gives => Nat.not_le.mpr few gives.2)
        cases req.packets.head? with
        | none => exact Access.exact_abort.bind_none
        | some packet =>
          rw [Access.deref_some, Access.ok_bind]
          dsimp only
          cases Sr.srGetInterface { sr with ticks := sr.ticks + 2 } packet.iface with
          | none => exact Access.exact_abort.bind_none
          | some intf =>
            rw [Access.deref_some, Access.ok_bind, arpRequestFrameChecked_ok, Access.ok_bind]
            exact Access.exact_ok _
      · rw [if_neg few, if_neg few]
        obtain ⟨whole, same⟩ := own ⟨due, Nat.not_lt.mp few⟩
        have loop := exact_unreachableLoop env request { sr with ticks := sr.ticks + 2 } whole
        rw [Sr.unreachableLoop_eq] at loop
        rw [Sr.unreachableLoop_eq]
        refine (loop.bind_ok ?_).congr same
        rfl
    · rw [if_neg due, if_neg due]
      exact (Access.exact_ok _).congr (idle fun gives => due gives.1)

/-- `process_arpreq` finds the interface it needs for a request, at the reading
of the clock with this index. -/
def Sr.Survives (env : Env) (sr : Sr) (ticks : Nat) (req : ArpReq) : Prop :=
  env.time ticks - req.sent ≥ 1 → req.timesSent < 5 →
    ∃ packet, req.packets.head? = some packet ∧ sr.srGetInterface packet.iface ≠ none

/-- A sweep that has these requests before it quotes no frame that ends too
early, as long as it meets no NULL interface. -/
def Sr.SafeSweep (env : Env) (sr : Sr) : Nat → List ArpReq → Prop
  | _, [] => True
  | ticks, req :: rest =>
      (req.GivesUp env ticks → ∀ p ∈ req.packets, sr.Quotable env p) ∧
        (sr.Survives env ticks req → sr.SafeSweep env (ticks + 2) rest)

theorem safeSweep_iff {s t : Sr} (ifList : t.ifList = s.ifList) (ticks : Nat)
    (requests : List ArpReq) : t.SafeSweep env ticks requests ↔ s.SafeSweep env ticks requests := by
  induction requests generalizing ticks with
  | nil => exact Iff.rfl
  | cons req rest ih =>
    have found : ∀ name, t.srGetInterface name = s.srGetInterface name := by
      intro name
      rw [Sr.srGetInterface, Sr.srGetInterface, ifList]
    rw [Sr.SafeSweep, Sr.SafeSweep, ih]
    simp only [quotable_iff env ifList, Sr.Survives, found]

theorem ticks_of_processArpreq {sr sr' : Sr} {request : Nat}
    (h : sr.processArpreq env request = some sr') : sr'.ticks = sr.ticks + 2 := by
  obtain ⟨req, -, -, ⟨-, rfl⟩ | ⟨-, -, packet, intf, -, -, rfl⟩ | ⟨-, -, rfl⟩⟩ :=
    processArpreq_cases h <;> rfl

theorem exists_processArpreq_iff (env : Env) {sr : Sr} {req : ArpReq}
    (live : sr.cache.deref req.addr = some req) :
    (∃ sr', sr.processArpreq env req.addr = some sr') ↔ sr.Survives env sr.ticks req := by
  constructor
  · rintro ⟨sr', h⟩ due few
    obtain ⟨other, live', same, outcome⟩ := processArpreq_cases h
    obtain rfl : other = req := by
      rw [same, live] at live'
      exact (Option.some.inj live').symm
    rcases outcome with ⟨early, -⟩ | ⟨-, -, packet, intf, first, found, -⟩ | ⟨-, many, -⟩
    · omega
    · exact ⟨packet, first, by rw [found]; nofun⟩
    · omega
  · intro survives
    unfold Sr.processArpreq
    rw [live]
    dsimp only
    by_cases due : env.time sr.ticks - req.sent ≥ 1
    · rw [if_pos due]
      by_cases few : req.timesSent < 5
      · obtain ⟨packet, first, some⟩ := survives due few
        obtain ⟨intf, found⟩ := Option.ne_none_iff_exists'.mp some
        have found' : Sr.srGetInterface { sr with ticks := sr.ticks + 2 } packet.iface =
            .some intf := found
        rw [if_pos few, first]
        dsimp only
        rw [found']
        exact ⟨_, rfl⟩
      · rw [if_neg few, Sr.unreachableLoop_eq]
        exact ⟨_, rfl⟩
    · rw [if_neg due]
      exact ⟨_, rfl⟩

theorem sweepLoop_succ (fuel request : Nat) (sr : Sr) :
    sr.sweepLoop env (fuel + 1) (some request) =
      ((sr.log (.visited request)).processArpreq env request).bind
        fun u => u.sweepLoop env fuel (ArpCache.next request sr.cache.requests) := by
  rw [Sr.sweepLoop]
  cases (sr.log (.visited request)).processArpreq env request <;> rfl

/-- The sweep, from any request on. -/
theorem exact_sweepLoop {rest before : List ArpReq} {fuel : Nat} {s : Sr} (inv : QueueInv s)
    (split : s.cache.requests = before ++ rest) (enough : rest.length ≤ fuel) :
    Access.Exact (s.SafeSweep env s.ticks rest)
      (s.sweepLoopChecked env fuel (rest.head?.map ArpReq.addr))
      (s.sweepLoop env fuel (rest.head?.map ArpReq.addr)) := by
  induction rest generalizing before fuel s with
  | nil =>
    rw [List.head?_nil, Option.map_none]
    unfold Sr.sweepLoopChecked Sr.sweepLoop
    exact Access.exact_ok s
  | cons req rest ih =>
    cases fuel with
    | zero => exact (Nat.not_succ_le_zero _ enough).elim
    | succ fuel =>
      have visit : QueueInv (s.log (.visited req.addr)) := inv.log _
      have live : (s.log (.visited req.addr)).cache.deref req.addr = some req :=
        deref_of_mem inv.addrs (by simp [split])
      have later : ∀ u, (s.log (.visited req.addr)).processArpreq env req.addr = some u →
          Access.Exact (u.SafeSweep env u.ticks rest)
            (u.sweepLoopChecked env fuel (rest.head?.map ArpReq.addr))
            (u.sweepLoop env fuel (rest.head?.map ArpReq.addr)) := by
        intro u visited
        obtain ⟨inv', ⟨before', behind⟩, -⟩ := sweep_turn inv split visited
        exact ih inv' behind (Nat.le_of_succ_le_succ enough)
      rw [List.head?_cons, Option.map_some, Sr.sweepLoopChecked, sweepLoop_succ, split,
        next_append (addr_ne_of_split (split ▸ inv.addrs)).1]
      refine ((exact_processArpreq visit.long).bind later).congr (and_congr ?_ ?_)
      · rw [live]
        constructor
        · exact fun quoted r eq => Option.some.inj eq ▸ quoted
        · exact fun quoted => quoted req rfl
      · -- the sweep goes on exactly if `process_arpreq` returns
        constructor
        · intro safe u visited
          have ifList : u.ifList = s.ifList := (processArpreq_moves visited).config.1
          rw [ticks_of_processArpreq visited, safeSweep_iff ifList]
          exact safe ((exists_processArpreq_iff env live).mp ⟨u, visited⟩)
        · intro safe survives
          obtain ⟨u, visited⟩ := (exists_processArpreq_iff env live).mpr survives
          have ifList : u.ifList = s.ifList := (processArpreq_moves visited).config.1
          have safe := safe u visited
          rw [ticks_of_processArpreq visited, safeSweep_iff ifList] at safe
          exact safe

/-! ## IP packets in bounds -/

/-- Leaving by this exit quotes no frame that ends too early. -/
def Sr.SafeExit (env : Env) (sr : Sr) (packet : List UInt8) (interface : IfName) :
    IpExit → Prop
  | .portUnreachable _ | .timeExceeded | .netUnreachable =>
      sr.srGetInterface interface ≠ none → ipHdr.off + icmpDataSize ≤ packet.length
  | .queued nextHop =>
      ∀ req, sr.cache.findReq nextHop.gw = some req → req.GivesUp env sr.ticks →
        ∀ p ∈ sr.newPacket (rewritten env packet) nextHop.interface :: req.packets,
          sr.Quotable env p
  | _ => True

theorem length_recomputeIcmpSum (packet : List UInt8) :
    (recomputeIcmpSum env packet).length = packet.length := by
  rw [recomputeIcmpSum, Field.length_set, Field.length_set]

/-- No exit of an ICMP packet to the router quotes it. -/
theorem safeExit_icmp {sr : Sr} {packet : List UInt8} {interface : IfName} (destIntf : SrIf)
    (icmp : env.getU8 ipP packet = ipProtocolIcmp) :
    sr.SafeExit env packet interface (localExit env packet destIntf) ↔ True := by
  rw [iff_true, localExit, if_pos icmp]
  split
  · trivial
  · split
    · trivial
    · split <;> trivial

/-- A message with an error is about a frame that must have all it quotes. -/
theorem exact_error {sr : Sr} {packet : List UInt8} {interface : IfName} {type : UInt8}
    (code : UInt8) (destIntf : Option SrIf) (error : type ≠ 0)
    (long : ipHdrSize + etherHdrSize ≤ packet.length) :
    Access.Exact (sr.srGetInterface interface ≠ none → ipHdr.off + icmpDataSize ≤ packet.length)
      (sr.sendFabricatedIcmpPacketChecked env .icmp packet interface type code destIntf)
      (sr.sendFabricatedIcmpPacket env .icmp packet interface type code destIntf) :=
  (exact_sendFabricatedIcmp code destIntf long (room_error packet error)).congr
    ⟨fun h some _ => h some, fun h some => h some error⟩

theorem exact_processLocal {sr : Sr} {packet : List UInt8} {interface : IfName}
    {destIntf : SrIf} (long : ipHdrSize + etherHdrSize ≤ packet.length) :
    Access.Exact (sr.SafeExit env packet interface (localExit env packet destIntf))
      (sr.processLocalChecked env packet interface destIntf)
      (sr.processLocal env packet interface destIntf) := by
  unfold Sr.processLocalChecked Sr.processLocal
  rw [Field.checked_ok (le_trans (by decide) long), Access.ok_bind]
  by_cases icmp : env.getU8 ipP packet = ipProtocolIcmp
  · rw [if_pos icmp, if_pos icmp]
    refine Access.Exact.congr ?_ (safeExit_icmp destIntf icmp)
    by_cases short : icmpHdrSize + etherHdrSize + ipHdrSize > packet.length
    · rw [if_pos short, if_pos short]
      exact Access.exact_ok sr
    · have whole : icmpHdrSize + etherHdrSize + ipHdrSize ≤ packet.length := by omega
      have whole' : icmpHdrSize + etherHdrSize + ipHdrSize ≤
          (recomputeIcmpSum env packet).length := by rwa [length_recomputeIcmpSum]
      rw [if_neg short, if_neg short, Field.checked_ok (le_trans (by decide) whole),
        Access.ok_bind]
      dsimp only
      rw [recomputeIcmpSumChecked_ok whole, Access.ok_bind,
        Field.checked_ok (le_trans (by decide) whole'), Access.ok_bind]
      show Access.Exact True _
        (if env.getSum icmpSum (recomputeIcmpSum env packet) ≠ env.getSum icmpSum packet then
          some sr
        else if env.getU8 icmpType (recomputeIcmpSum env packet) ≠ 8 then some sr
        else sr.sendFabricatedIcmpPacket env .icmp (recomputeIcmpSum env packet) interface 0 0
          (some destIntf))
      by_cases fails : env.getSum icmpSum (recomputeIcmpSum env packet) ≠ env.getSum icmpSum packet
      · have back : icmpSum.off + (memU16 env.endian (env.getSum icmpSum packet)).length ≤
            (recomputeIcmpSum env packet).length := by
          rw [length_memU16]
          exact le_trans (by decide) whole'
        rw [if_pos fails, if_pos fails, Field.write_ok back, Access.ok_bind]
        exact Access.exact_ok sr
      · rw [if_neg fails, if_neg fails, Field.checked_ok (le_trans (by decide) whole'),
          Access.ok_bind]
        by_cases other : env.getU8 icmpType (recomputeIcmpSum env packet) ≠ 8
        · rw [if_pos other, if_pos other]
          exact Access.exact_ok sr
        · rw [if_neg other, if_neg other]
          have room : icmpHdrSize + etherHdrSize + ipHdrSize ≤
              sendingLength (recomputeIcmpSum env packet) 0 := whole'
          refine (exact_sendFabricatedIcmp 0 (some destIntf) (le_trans (by decide) whole')
            room).congr ?_
          exact ⟨fun _ _ error => absurd rfl error, fun _ => trivial⟩
  · rw [if_neg icmp, if_neg icmp, localExit, if_neg icmp]
    exact exact_error 3 (some destIntf) (by decide) long

/-- The request of a packet that was just queued is given up only if it was on
the queue before. -/
theorem enqueue_quotes_iff {s : Sr} {ip : UInt32} {buf : List UInt8} {iface : IfName}
    (inv : QueueInv s) (queue : QueueInv (s.enqueue ip buf iface).1)
    (nonempty : buf.length ≠ 0) :
    (∀ req, (s.enqueue ip buf iface).1.cache.deref (s.enqueue ip buf iface).2 = some req →
        req.GivesUp env (s.enqueue ip buf iface).1.ticks →
          ∀ p ∈ req.packets, (s.enqueue ip buf iface).1.Quotable env p) ↔
      ∀ req, s.cache.findReq ip = some req → req.GivesUp env s.ticks →
        ∀ p ∈ s.newPacket buf iface :: req.packets, s.Quotable env p := by
  rcases enqueue_cases s ip iface nonempty with ⟨absent, eq⟩ | ⟨before, req, after, split, hip, eq⟩
  · have none : s.cache.findReq ip = none :=
      List.find?_eq_none.mpr fun r hr => by simpa using absent r hr
    rw [none, eq]
    rw [eq] at queue
    refine ⟨fun _ => nofun, fun _ req live gives => ?_⟩
    -- the request is new and was never sent
    have new := deref_of_mem queue.addrs List.mem_cons_self
    obtain rfl := Option.some.inj (new.symm.trans live)
    exact (Nat.not_succ_le_zero _ gives.2).elim
  · have mine : req ∈ s.cache.requests := by simp [split]
    have found : s.cache.findReq ip = some req := hip ▸ findReq_of_mem inv.ips mine
    rw [found, eq]
    rw [eq] at queue
    set after' := before ++ push req (s.newPacket buf iface) :: after
    have live := deref_of_mem queue.addrs
      (show push req (s.newPacket buf iface) ∈ after' from
        List.mem_append_right _ List.mem_cons_self)
    have quotable (p : SrPacket) : (s.queue ip (s.newPacket buf iface) after').Quotable env p ↔
        s.Quotable env p := quotable_iff env rfl p
    constructor
    · intro safe r same gives p hp
      obtain rfl := Option.some.inj same
      exact (quotable p).mp (safe _ live gives p hp)
    · intro safe r live' gives p hp
      obtain rfl := Option.some.inj (live.symm.trans live')
      exact (quotable p).mpr (safe req rfl gives p hp)

theorem exact_forwardPacket {sr : Sr} {packet : List UInt8} (interface : IfName)
    {nextHop : SrRt} (inv : QueueInv sr) (route : nextHop ∈ sr.routingTable)
    (long : ipHdrSize + etherHdrSize ≤ packet.length) :
    Access.Exact (sr.SafeExit env packet interface
        (match sr.cache.srArpcacheLookup nextHop.gw with
          | none => .queued nextHop
          | some entry => .forwarded nextHop entry.mac))
      (sr.forwardPacketChecked env packet nextHop) (sr.forwardPacket env packet nextHop) := by
  have long' : ipHdrSize + etherHdrSize ≤ (rewritten env packet).length := by
    rwa [length_rewritten]
  have ttl : ipTtl.write [env.getU8 ipTtl packet - 1] packet =
      .ok (ipTtl.set [env.getU8 ipTtl packet - 1] packet) :=
    Field.write_ok (by rw [List.length_singleton]; exact le_trans (by decide) long)
  unfold Sr.forwardPacketChecked Sr.forwardPacket
  rw [Field.checked_ok (le_trans (by decide) long), Access.ok_bind, ttl, Access.ok_bind,
    recomputeIpSumChecked_ok (by rwa [Field.length_set]), Access.ok_bind]
  dsimp only
  rw [show recomputeIpSum env (ipTtl.set [env.getU8 ipTtl packet - 1] packet) =
    rewritten env packet from rfl]
  cases sr.cache.srArpcacheLookup nextHop.gw with
  | none =>
    have queue := queueInv_enqueue inv route long'
    exact (exact_processArpreq queue.long).congr
      (enqueue_quotes_iff inv queue (nonempty_of_long long')).symm
  | some entry =>
    have mac : etherDhost.write entry.mac.bytes (rewritten env packet) =
        .ok (etherDhost.set entry.mac.bytes (rewritten env packet)) :=
      Field.write_ok (by rw [entry.mac.size]; exact le_trans (by decide) long')
    dsimp only
    rw [mac, Access.ok_bind]
    cases sr.srGetInterface nextHop.interface with
    | none => exact Access.exact_abort.bind_none
    | some intf =>
      have source : etherShost.write intf.addr.bytes
          (etherDhost.set entry.mac.bytes (rewritten env packet)) = .ok _ :=
        Field.write_ok (by
          rw [intf.addr.size, Field.length_set]
          exact le_trans (by decide) long')
      rw [Access.deref_some, Access.ok_bind, source, Access.ok_bind]
      exact Access.exact_ok _

theorem exact_processIpPacket {sr : Sr} (packet : List UInt8) (interface : IfName)
    (inv : QueueInv sr) :
    Access.Exact (sr.SafeExit env packet interface (sr.ipExit env packet))
      (sr.processIpPacketChecked env packet interface)
      (sr.processIpPacket env packet interface) := by
  unfold Sr.processIpPacketChecked Sr.processIpPacket Sr.ipExit
  by_cases short : ipHdrSize + etherHdrSize > packet.length
  · rw [if_pos short, if_pos short, if_pos short]
    exact Access.exact_ok sr
  have long : ipHdrSize + etherHdrSize ≤ packet.length := by omega
  rw [if_neg short, if_neg short, if_neg short, Field.checked_ok (le_trans (by decide) long),
    Access.ok_bind]
  dsimp only
  rw [recomputeIpSumChecked_ok long, Access.ok_bind,
    Field.checked_ok (by rw [length_recomputeIpSum]; exact le_trans (by decide) long),
    Access.ok_bind]
  by_cases passes : PassesSum env packet
  · have same : env.getSum ipSum (recomputeIpSum env packet) = env.getSum ipSum packet := passes
    rw [if_neg (not_not_intro same), if_neg (not_not_intro same),
      if_neg (not_not_intro passes), recomputeIpSum_of_valid long passes,
      Field.checked_ok (le_trans (by decide) long), Access.ok_bind]
    cases sr.getInterfaceFromIp (env.getU32 ipDst packet) with
    | some destIntf => exact exact_processLocal long
    | none =>
      dsimp only
      rw [Field.checked_ok (le_trans (by decide) long), Access.ok_bind]
      by_cases expired : 1 ≥ env.getU8 ipTtl packet
      · rw [if_pos expired, if_pos expired, if_pos expired]
        exact exact_error 0 none (by decide) long
      rw [if_neg expired, if_neg expired, if_neg expired]
      cases route : bestMatchLoop env (env.getU32 ipDst packet) none sr.routingTable with
      | none => exact exact_error 0 none (by decide) long
      | some nextHop =>
        exact exact_forwardPacket interface inv ((bestMatchLoop_mem route).resolve_right nofun) long
  · have differ : env.getSum ipSum (recomputeIpSum env packet) ≠ env.getSum ipSum packet := passes
    have back : ipSum.off + (memU16 env.endian (env.getSum ipSum packet)).length ≤
        (recomputeIpSum env packet).length := by
      rw [length_memU16, length_recomputeIpSum]
      exact le_trans (by decide) long
    rw [if_pos differ, if_pos differ, if_pos passes, Field.write_ok back, Access.ok_bind]
    exact Access.exact_ok sr

/-! ## ARP packets in bounds -/

theorem arpReplyFrameChecked_ok {packet : List UInt8} (gotOnIntf : SrIf)
    (long : arpHdrSize + etherHdrSize ≤ packet.length) :
    arpReplyFrameChecked env packet gotOnIntf = .ok (arpReplyFrame env packet gotOnIntf) := by
  simp only [arpHdrSize, etherHdrSize] at long
  unfold arpReplyFrameChecked arpReplyFrame
  simp (disch := simp [etherAddrLen]; omega) only [Env.read_ok, Field.write_ok, Access.ok_bind]

theorem replayFrameChecked_ok {buf : List UInt8} (mac : Mac) (gotOnIntf : SrIf)
    (long : etherHdrSize ≤ buf.length) :
    replayFrameChecked mac gotOnIntf buf = .ok (replayFrame mac gotOnIntf buf) := by
  simp only [etherHdrSize] at long
  unfold replayFrameChecked replayFrame
  simp (disch := simp [etherAddrLen]; omega) only [Field.write_ok, Access.ok_bind]

theorem exact_replayLoop {gotOnIntf : Option SrIf} {interface : IfName} {ip : UInt32} {mac : Mac}
    {packets : List SrPacket} (sr : Sr)
    (long : ∀ p ∈ packets, ipHdrSize + etherHdrSize ≤ p.buf.length) :
    Access.Exact True (sr.replayLoopChecked gotOnIntf interface ip mac packets)
      (sr.replayLoop gotOnIntf interface ip mac packets) := by
  induction packets generalizing sr with
  | nil => exact Access.exact_ok sr
  | cons packet rest ih =>
    rw [Sr.replayLoopChecked]
    cases gotOnIntf with
    | none =>
      rw [Sr.replayLoop]
      exact Access.exact_abort.bind_none
    | some intf =>
      rw [Sr.replayLoop]
      have whole : etherHdrSize ≤ packet.buf.length :=
        le_trans (by decide) (long packet List.mem_cons_self)
      rw [Access.deref_some, Access.ok_bind, replayFrameChecked_ok mac intf whole, Access.ok_bind]
      exact ih _ fun p hp => long p (List.mem_cons_of_mem _ hp)

theorem exact_processArpPacket {sr : Sr} (packet : List UInt8) (interface : IfName)
    (inv : QueueInv sr) :
    Access.Exact True (sr.processArpPacketChecked env packet interface)
      (sr.processArpPacket env packet interface) := by
  unfold Sr.processArpPacketChecked Sr.processArpPacket
  by_cases short : arpHdrSize + etherHdrSize > packet.length
  · rw [if_pos short, if_pos short]
    exact Access.exact_ok sr
  have long : arpHdrSize + etherHdrSize ≤ packet.length := by omega
  rw [if_neg short, if_neg short]
  dsimp only
  rw [Field.checked_ok (le_trans (by decide) long), Access.ok_bind]
  by_cases request : env.getU16 arOp packet = arpOpRequest
  · rw [if_pos request, if_pos request, Field.checked_ok (le_trans (by decide) long),
      Access.ok_bind]
    cases sr.srGetInterface interface with
    | none => exact Access.exact_abort.bind_none
    | some intf =>
      rw [Access.deref_some, Access.ok_bind]
      dsimp only
      by_cases other : env.getU32 arTip packet ≠ intf.ip
      · rw [if_pos other, if_pos other]
        exact Access.exact_ok sr
      · rw [if_neg other, if_neg other, arpReplyFrameChecked_ok intf long, Access.ok_bind]
        exact Access.exact_ok _
  rw [if_neg request, if_neg request]
  by_cases reply : env.getU16 arOp packet = arpOpReply
  · rw [if_pos reply, if_pos reply, Field.checked_ok (le_trans (by decide) long), Access.ok_bind,
      Field.checked_ok (le_trans (by decide) long), Access.ok_bind]
    dsimp only [ArpCache.srArpcacheInsert]
    cases found : sr.cache.findReq (env.getU32 arSip packet) with
    | none => exact Access.exact_ok _
    | some req =>
      have long' : ∀ p ∈ req.packets, ipHdrSize + etherHdrSize ≤ p.buf.length := fun p hp =>
        inv.long p (Sr.mem_waiting (List.mem_of_find?_eq_some found) hp)
      dsimp only
      generalize { sr with cache := _, ticks := sr.ticks + 1 } = inserted
      have replayed : Access.Exact True
          (inserted.replayLoopChecked (sr.srGetInterface interface) interface
            (env.getU32 arSip packet) (env.getMac arSha.off packet) req.packets)
          (inserted.replayLoop (sr.srGetInterface interface) interface
            (env.getU32 arSip packet) (env.getMac arSha.off packet) req.packets) :=
        exact_replayLoop inserted long'
      cases sent : inserted.replayLoop (sr.srGetInterface interface) interface
          (env.getU32 arSip packet) (env.getMac arSha.off packet) req.packets with
      | none =>
        rw [sent] at replayed
        exact replayed.bind_none
      | some replied =>
        rw [sent] at replayed
        refine replayed.bind_ok ?_
        rfl
  · rw [if_neg reply, if_neg reply]
    exact Access.exact_ok sr

/-! ## The router in bounds -/

/-- The frame has an ethertype, and what the router does with the queue and with
an IP packet quotes no frame that ends too early. -/
def Sr.SafeOp (env : Env) (sr : Sr) : Op → Prop
  | .frame packet interface =>
      etherHdrSize ≤ packet.length ∧
        (ethertype env packet = ethertypeIp →
          sr.SafeExit env packet interface (sr.ipExit env packet))
  | .timeout => sr.SafeSweep env (sr.ticks + 1) sr.cache.requests

theorem exact_apply {sr : Sr} (inv : QueueInv sr) (op : Op) :
    Access.Exact (sr.SafeOp env op) (sr.applyChecked env op) (sr.apply env op) := by
  cases op with
  | frame packet interface =>
    unfold Sr.SafeOp Sr.applyChecked Sr.srHandlepacketChecked Sr.apply Sr.srHandlepacket
    have dispatched : Access.Exact (ethertype env packet = ethertypeIp →
          sr.SafeExit env packet interface (sr.ipExit env packet))
        (if ethertype env packet = ethertypeArp then
            sr.processArpPacketChecked env packet interface
          else if ethertype env packet = ethertypeIp then
            sr.processIpPacketChecked env packet interface
          else .ok sr)
        (if ethertype env packet = ethertypeArp then sr.processArpPacket env packet interface
          else if ethertype env packet = ethertypeIp then sr.processIpPacket env packet interface
          else some sr) := by
      by_cases arp : ethertype env packet = ethertypeArp
      · rw [if_pos arp, if_pos arp]
        refine (exact_processArpPacket packet interface inv).congr
          ⟨fun _ => trivial, fun _ ip => ?_⟩
        exact absurd (arp.symm.trans ip) (by decide)
      rw [if_neg arp, if_neg arp]
      by_cases ip : ethertype env packet = ethertypeIp
      · rw [if_pos ip, if_pos ip]
        exact (exact_processIpPacket packet interface inv).congr ⟨fun h => h ip, fun h _ => h⟩
      · rw [if_neg ip, if_neg ip]
        exact (Access.exact_ok sr).congr ⟨fun _ => trivial, fun _ type => absurd type ip⟩
    have typed : Access.Exact (etherHdrSize ≤ packet.length) (etherType.checked packet)
        (some ()) :=
      Access.exact_inside (show etherType.size ≠ 0 by decide)
    exact typed.bind_some dispatched
  | timeout =>
    set expired : Sr :=
      { sr with cache := sr.cache.expire (env.time sr.ticks), ticks := sr.ticks + 1 }
    have inv' : QueueInv expired := inv.sublist (.refl _) rfl rfl (List.prefix_refl _)
    have same : expired.SafeSweep env (sr.ticks + 1) sr.cache.requests ↔
        sr.SafeSweep env (sr.ticks + 1) sr.cache.requests :=
      safeSweep_iff (s := sr) (t := expired) rfl _ _
    exact (exact_sweepLoop inv' (List.nil_append _).symm le_rfl).congr same.symm

/-- **Frame processing stays in its buffers** exactly if it reaches neither the
ethertype of a frame that has none nor the quotation of one that ends too
early. -/
theorem leavesBuffer_iff {ifList : List SrIf} {routingTable : List SrRt} {ops : List Op} {sr : Sr}
    (h : Run (Step env) (srInit ifList routingTable) ops sr) (op : Op) :
    ¬ sr.LeavesBuffer env op ↔ sr.SafeOp env op :=
  (exact_apply (queueInv_run (queueInv_init ifList routingTable) h) op).inBounds_iff

/-- A frame that ends behind its IP header, to a port of the router. -/
def truncatedUdp : List UInt8 := localUdpFrame.take (ipHdrSize + etherHdrSize)

theorem leavesBuffer_iff_truncated :
    ¬ twoPorts.LeavesBuffer .counting (.frame truncatedUdp eth0) ↔
      twoPorts.SafeOp .counting (.frame truncatedUdp eth0) :=
  leavesBuffer_iff .nil _

/-- The message that its port is unreachable quotes eight bytes behind its
end. -/
theorem truncated_frame_is_left :
    ¬ ∀ (ops : List Op) (sr : Sr) (op : Op), Run (Step .counting) twoPorts ops sr →
      ¬ sr.LeavesBuffer .counting op := by
  intro general
  exact general [] twoPorts (.frame truncatedUdp eth0) .nil (by decide +kernel)

end NetLabs.Router
