/-
NetLabs.Router.Announcements — where the bindings of ARP caches come from.

A router binds an IP address to a MAC address when an ARP reply says so,
whether it asked or not (`step_binds`). What it sends in its own name says so
of its own interfaces only (`step_owned`): its ICMP messages are IP packets
and its ARP requests are no replies. And no reply is ever forwarded. So a
binding in any cache of a network was announced by a frame that came from
outside, or it is one of the interfaces (`network_bindings_announced`).
-/
import NetLabs.Router.Network

namespace NetLabs.Router

open NetLabs.Lib ArpCache

variable {env : Env}

/-! ## Bindings of one router -/

/-- An entry of the cache that is valid binds `ip` to `mac`. -/
def Sr.Binds (sr : Sr) (ip : UInt32) (mac : Mac) : Prop :=
  ∃ e ∈ sr.cache.entries, e.valid = true ∧ e.ip = ip ∧ e.mac = mac

/-- The frame says that `ip` is at `mac`. -/
def Announces (frame : List UInt8) (ip : UInt32) (mac : Mac) : Prop :=
  ∃ env, IsReply env ip mac frame

theorem mem_store {entry e : ArpEntry} {entries : List ArpEntry} (h : e ∈ store entry entries) :
    e = entry ∨ e ∈ entries := by
  induction entries with
  | nil => exact .inr h
  | cons first rest ih =>
    rw [store] at h
    split at h
    · rcases List.mem_cons.mp h with rfl | later
      · exact .inr List.mem_cons_self
      · exact (ih later).imp_right (List.mem_cons_of_mem first)
    · exact (List.mem_cons.mp h).imp_right (List.mem_cons_of_mem first)

/-- A binding that is left after the expiry was there before. -/
theorem binds_expire {sr : Sr} {now : Int} {ticks : Nat} {ip : UInt32} {mac : Mac}
    (h : { sr with cache := sr.cache.expire now, ticks }.Binds ip mac) : sr.Binds ip mac := by
  obtain ⟨e, mem, valid, at_ip, at_mac⟩ := h
  obtain ⟨e, was, rfl⟩ := List.mem_map.mp mem
  unfold expireOne at valid at_ip at_mac
  split at valid
  · cases valid
  · rename_i kept
    rw [if_neg kept] at at_ip at_mac
    exact ⟨e, was, valid, at_ip, at_mac⟩

theorem processArpreq_entries {s t : Sr} {request : Nat}
    (h : s.processArpreq env request = some t) : t.cache.entries = s.cache.entries := by
  obtain ⟨req, -, -, ⟨-, rfl⟩ | ⟨-, -, packet, intf, -, -, rfl⟩ | ⟨-, -, rfl⟩⟩ :=
    processArpreq_cases h
  · rfl
  · rfl
  · rfl

theorem sweepLoop_entries {fuel : Nat} {request : Option Nat} {s t : Sr}
    (h : s.sweepLoop env fuel request = some t) : t.cache.entries = s.cache.entries := by
  induction fuel generalizing request s with
  | zero =>
    cases request with
    | none => rw [Option.some.inj h]
    | some r => cases h
  | succ fuel ih =>
    cases request with
    | none => rw [Option.some.inj h]
    | some r =>
      rw [Sr.sweepLoop] at h
      split at h
      · cases h
      · rename_i s₁ visited
        have same : s₁.cache.entries = (s.log (.visited r)).cache.entries :=
          processArpreq_entries visited
        exact (ih h).trans same

theorem answer_entries {s t : Sr} {packet : List UInt8} {interface : IfName}
    {message : Option (UInt8 × UInt8 × Option SrIf)}
    (h : s.answer env packet interface message = some t) :
    t.cache.entries = s.cache.entries := by
  cases message with
  | none => rw [Option.some.inj h]
  | some message =>
    have sent : s.sendFabricatedIcmpPacket env .icmp packet interface message.1 message.2.1
        message.2.2 = some t := h
    unfold Sr.sendFabricatedIcmpPacket at sent
    split at sent
    · cases sent
    · rw [← Option.some.inj sent, Sr.srSendPacket_eq]
      rfl

theorem processIpPacket_entries {s t : Sr} {packet : List UInt8} {interface : IfName}
    (h : s.processIpPacket env packet interface = some t) :
    t.cache.entries = s.cache.entries := by
  rw [processIpPacket_leaveBy] at h
  obtain ⟨⟨t', buf⟩, leaves, rfl⟩ := Option.map_eq_some_iff.mp h
  have taken := takesExit_ipExit env s packet
  generalize s.ipExit env packet = exit at taken leaves
  cases taken with
  | forwarded =>
    obtain ⟨_, -, eq⟩ := Option.map_eq_some_iff.mp leaves
    rw [← (Prod.mk.inj eq).1, Sr.srSendPacket_eq]
    rfl
  | @queued nextHop =>
    obtain ⟨t₁, visited, eq⟩ := Option.map_eq_some_iff.mp leaves
    have same : t₁.cache.entries =
        (s.enqueue nextHop.gw (rewritten env packet) nextHop.interface).1.cache.entries :=
      processArpreq_entries visited
    rw [← (Prod.mk.inj eq).1]
    exact same
  | tooShort | badHeaderSum | icmpTooShort | badIcmpSum | notEchoRequest | echoReply
  | portUnreachable | timeExceeded | netUnreachable =>
    exact answer_entries (answer_of_leaveBy rfl leaves).1

/-- An ARP packet adds the binding of a reply. -/
theorem processArpPacket_binds {s t : Sr} {packet : List UInt8} {interface : IfName} {ip : UInt32}
    {mac : Mac} (type : ethertype env packet = ethertypeArp)
    (h : s.processArpPacket env packet interface = some t) (binds : t.Binds ip mac) :
    s.Binds ip mac ∨ IsReply env ip mac packet := by
  have whole := h
  unfold Sr.processArpPacket at h
  split at h
  · rw [Option.some.inj h]
    exact .inl binds
  rename_i long
  dsimp only at h
  split at h
  · split at h
    · cases h
    · split at h
      · rw [Option.some.inj h]
        exact .inl binds
      · rw [← Option.some.inj h, Sr.srSendPacket_eq] at binds
        exact .inl binds
  split at h
  · rename_i op
    -- Whatever the reply resolves, the table changes by its binding only.
    have stored : t.cache.entries = store { mac := env.getMac arSha.off packet
                                            ip := env.getU32 arSip packet
                                            added := env.time s.ticks
                                            valid := true } s.cache.entries := by
      rcases arpReply_cases long op rfl rfl whole with
        ⟨-, rfl⟩ | ⟨req, -, -, ⟨-, rfl⟩ | ⟨intf, -, rfl⟩⟩
      · rfl
      · rfl
      · rfl
    obtain ⟨e, mem, valid, at_ip, at_mac⟩ := binds
    rw [stored] at mem
    rcases mem_store mem with rfl | old
    · exact .inr ⟨type, not_lt.mp long, op, at_ip, at_mac⟩
    · exact .inl ⟨e, old, valid, at_ip, at_mac⟩
  · rw [Option.some.inj h]
    exact .inl binds

/-- A binding is old, or the frame is a reply that says so. -/
theorem step_binds {s t : Sr} {op : Op} {ip : UInt32} {mac : Mac} (h : Step env s op t)
    (binds : t.Binds ip mac) :
    s.Binds ip mac ∨ ∃ packet interface, op = .frame packet interface ∧
      IsReply env ip mac packet := by
  cases op with
  | timeout =>
    unfold Step Sr.apply Sr.srArpcacheTimeout Sr.srArpcacheSweepreqs at h
    have same := sweepLoop_entries h
    unfold Sr.Binds at binds
    rw [same] at binds
    exact .inl (binds_expire binds)
  | frame packet interface =>
    unfold Step Sr.apply Sr.srHandlepacket at h
    dsimp only at h
    split at h
    · exact (processArpPacket_binds ‹_› h binds).imp_right fun reply =>
        ⟨packet, interface, rfl, reply⟩
    · split at h
      · unfold Sr.Binds at binds
        rw [processIpPacket_entries h] at binds
        exact .inl binds
      · rw [Option.some.inj h]
        exact .inl binds

/-! ## What a router announces -/

/-- If the frame announces a binding, it is one of the interfaces. -/
def AnnouncesOwn (ifList : List SrIf) (frame : List UInt8) : Prop :=
  ∀ ip mac, Announces frame ip mac → ∃ intf ∈ ifList, intf.ip = ip ∧ intf.addr = mac

/-- What the router sends in its own name announces its interfaces only. -/
def Event.Owned (ifList : List SrIf) (e : Event) : Prop :=
  ∀ x, e.own? = some x → AnnouncesOwn ifList x.2

theorem owned_of_none {ifList : List SrIf} {e : Event} (h : e.own? = none) : e.Owned ifList := by
  intro x some
  rw [h] at some
  cases some

/-- Whatever is sent, the frame decides. -/
theorem owned_sent {ifList : List SrIf} {buf : List UInt8} (cause : Cause) (iface : IfName)
    (own : AnnouncesOwn ifList buf) : (Event.sent cause iface buf).Owned ifList := by
  intro x some
  cases cause <;> cases some <;> exact own

theorem owned_sendEvent {ifList : List SrIf} {buf : List UInt8} (sr : Sr) (cause : Cause)
    (iface : IfName) (own : AnnouncesOwn ifList buf) :
    (sr.sendEvent cause buf iface).Owned ifList := by
  unfold Sr.sendEvent
  split
  · exact owned_of_none rfl
  · exact owned_sent cause iface own

/-- An ICMP message is an IP packet. -/
theorem announcesOwn_icmp (ifList : List SrIf) (packet : List UInt8) (type code : UInt8)
    (out : SrIf) (destIntf : Option SrIf) :
    AnnouncesOwn ifList (fabricatedIcmp env packet type code out destIntf) := by
  rintro ip mac ⟨env', reply⟩
  have long := reply.long
  have arp := reply.type
  unfold fabricatedIcmp at long arp
  dsimp only at long arp
  rw [Field.length_set] at long
  rw [ethertype, Env.getU16, Env.get_set ⟨rfl, le_trans (by decide) long⟩, ofBe16_be16] at arp
  exact absurd arp (by decide)

/-- An ARP request is no reply. -/
theorem announcesOwn_arpRequest (ifList : List SrIf) (intf : SrIf) (ip : UInt32) :
    AnnouncesOwn ifList (arpRequestFrame intf ip) := by
  rintro ip' mac ⟨env', reply⟩
  have op := reply.op
  unfold arpRequestFrame at op
  dsimp only at op
  rw [Env.getU16] at op
  -- every field written after the operation stands apart from it
  iterate 11 rw [Env.get_set_apart (by simp [etherAddrLen])] at op
  rw [Env.get_set ⟨rfl, by simp [etherHdrSize, arpHdrSize]⟩, ofBe16_be16] at op
  exact absurd op (by decide)

theorem Mac.eq_of_bytes {a b : Mac} (h : a.bytes = b.bytes) : a = b := by
  obtain ⟨bytes, size⟩ := a
  obtain rfl := h
  rfl

/-- An ARP reply announces the interface that was asked for. -/
theorem announcesOwn_arpReply {ifList : List SrIf} {intf : SrIf} (mine : intf ∈ ifList)
    (packet : List UInt8) : AnnouncesOwn ifList (arpReplyFrame env packet intf) := by
  rintro ip mac ⟨env', reply⟩
  have long := reply.long
  have whole : arpHdrSize + etherHdrSize ≤ packet.length := by
    simpa only [arpReplyFrame, Field.length_set, List.length_replicate] using long
  have room : arpHdrSize + etherHdrSize ≤ (List.replicate packet.length (0 : UInt8)).length := by
    rwa [List.length_replicate]
  refine ⟨intf, mine, ?_, Mac.eq_of_bytes ?_⟩
  · rw [← reply.ip, Env.getU32]
    unfold arpReplyFrame
    dsimp only
    rw [Env.get_set_apart (by simp),
      Env.get_set ⟨rfl, by simpa only [Field.length_set] using le_trans (by decide) room⟩,
      ofBe32_be32]
  · have sha : (env'.getMac arSha.off (arpReplyFrame env packet intf)).bytes = intf.addr.bytes := by
      show env'.get arSha (arpReplyFrame env packet intf) = _
      unfold arpReplyFrame
      dsimp only
      iterate 3 rw [Env.get_set_apart (by simp [etherAddrLen])]
      exact Env.get_set ⟨intf.addr.size,
        by simpa only [Field.length_set] using le_trans (by decide) room⟩
    rw [← reply.mac, sha]

/-! ## What one operation announces -/

variable {s t : Sr}

theorem processArpreq_owned {request : Nat} (h : s.processArpreq env request = some t) :
    s.Adds (Event.Owned s.ifList) t := by
  obtain ⟨req, -, -, ⟨-, rfl⟩ | ⟨-, -, packet, intf, -, -, rfl⟩ | ⟨-, -, rfl⟩⟩ :=
    processArpreq_cases h
  · exact .of_eq rfl
  · exact .one rfl (owned_sent _ _ (announcesOwn_arpRequest _ _ _))
  · refine ⟨_, List.append_assoc _ _ _, fun e mem => ?_⟩
    rcases List.mem_append.mp mem with mem | mem
    · obtain ⟨p, -, rfl⟩ := List.mem_map.mp mem
      unfold Sr.unreachableEvent
      split
      · exact owned_of_none rfl
      · split
        · exact owned_of_none rfl
        · exact owned_sent _ _ (announcesOwn_icmp _ _ _ _ _ _)
    · obtain rfl := List.mem_singleton.mp mem
      exact owned_of_none rfl

theorem sweepLoop_owned {fuel : Nat} {request : Option Nat}
    (h : s.sweepLoop env fuel request = some t) : s.Adds (Event.Owned s.ifList) t := by
  induction fuel generalizing request s with
  | zero =>
    cases request with
    | none => exact .of_eq (congrArg Sr.trace (Option.some.inj h).symm)
    | some r => cases h
  | succ fuel ih =>
    cases request with
    | none => exact .of_eq (congrArg Sr.trace (Option.some.inj h).symm)
    | some r =>
      rw [Sr.sweepLoop] at h
      split at h
      · cases h
      · rename_i s₁ visited
        have first : s.Adds (Event.Owned s.ifList) (s.log (.visited r)) :=
          .one rfl (owned_of_none rfl)
        have one : (s.log (.visited r)).Adds (Event.Owned s.ifList) s₁ :=
          processArpreq_owned visited
        have same : s₁.ifList = s.ifList := (processArpreq_moves visited).config.1
        exact first.trans (one.trans (same ▸ ih h))

theorem answer_owned {packet : List UInt8} {interface : IfName}
    {message : Option (UInt8 × UInt8 × Option SrIf)}
    (h : s.answer env packet interface message = some t) : s.Adds (Event.Owned s.ifList) t := by
  cases message with
  | none => exact .of_eq (congrArg Sr.trace (Option.some.inj h).symm)
  | some message =>
    have sent : s.sendFabricatedIcmpPacket env .icmp packet interface message.1 message.2.1
        message.2.2 = some t := h
    unfold Sr.sendFabricatedIcmpPacket at sent
    split at sent
    · cases sent
    · rw [← Option.some.inj sent, Sr.srSendPacket_eq]
      exact .one rfl (owned_sendEvent _ _ _ (announcesOwn_icmp _ _ _ _ _ _))

theorem processIpPacket_owned {packet : List UInt8} {interface : IfName}
    (h : s.processIpPacket env packet interface = some t) : s.Adds (Event.Owned s.ifList) t := by
  rw [processIpPacket_leaveBy] at h
  obtain ⟨⟨t', buf⟩, leaves, rfl⟩ := Option.map_eq_some_iff.mp h
  have taken := takesExit_ipExit env s packet
  generalize s.ipExit env packet = exit at taken leaves
  cases taken with
  | forwarded long =>
    obtain ⟨intf, since⟩ := leaveBy_forwarded long leaves
    obtain ⟨_, -, eq⟩ := Option.map_eq_some_iff.mp leaves
    obtain ⟨rfl, -⟩ := Prod.mk.inj eq
    rw [Sr.srSendPacket_eq, since_eq rfl] at since
    refine .one ((congrArg Sr.trace (Sr.srSendPacket_eq ..)).trans
      (congrArg (s.trace ++ ·) since)) (owned_of_none rfl)
  | @queued nextHop =>
    obtain ⟨t₁, visited, eq⟩ := Option.map_eq_some_iff.mp leaves
    obtain ⟨rfl, -⟩ := Prod.mk.inj eq
    have queued : s.Adds (Event.Owned s.ifList)
        (s.enqueue nextHop.gw (rewritten env packet) nextHop.interface).1 :=
      .one (trace_enqueue _ _ _ _) (owned_of_none rfl)
    exact queued.trans (processArpreq_owned visited)
  | tooShort | badHeaderSum | icmpTooShort | badIcmpSum | notEchoRequest | echoReply
  | portUnreachable | timeExceeded | netUnreachable =>
    exact answer_owned (answer_of_leaveBy rfl leaves).1

theorem processArpPacket_owned {packet : List UInt8} {interface : IfName}
    (h : s.processArpPacket env packet interface = some t) : s.Adds (Event.Owned s.ifList) t := by
  have whole := h
  unfold Sr.processArpPacket at h
  split at h
  · exact .of_eq (congrArg Sr.trace (Option.some.inj h).symm)
  rename_i long
  dsimp only at h
  split at h
  · split at h
    · cases h
    · rename_i intf found
      split at h
      · exact .of_eq (congrArg Sr.trace (Option.some.inj h).symm)
      · rw [← Option.some.inj h, Sr.srSendPacket_eq]
        have mine : intf ∈ s.ifList := List.mem_of_find?_eq_some found
        exact .one rfl (owned_sendEvent _ _ _ (announcesOwn_arpReply mine packet))
  split at h
  · rename_i op
    rcases arpReply_cases long op rfl rfl whole with
      ⟨-, rfl⟩ | ⟨req, -, -, ⟨-, rfl⟩ | ⟨intf, -, rfl⟩⟩
    · exact .of_eq rfl
    · exact .of_eq rfl
    · refine ⟨_, rfl, fun e mem => ?_⟩
      obtain ⟨p, -, rfl⟩ := List.mem_map.mp mem
      refine owned_of_none ?_
      unfold Sr.replayEvent Sr.sendEvent
      split <;> rfl
  · exact .of_eq (congrArg Sr.trace (Option.some.inj h).symm)

/-- In its own name a router announces its interfaces only. -/
theorem step_owned {op : Op} (h : Step env s op t) : s.Adds (Event.Owned s.ifList) t := by
  cases op with
  | timeout =>
    unfold Step Sr.apply Sr.srArpcacheTimeout Sr.srArpcacheSweepreqs at h
    have swept := sweepLoop_owned h
    exact swept
  | frame packet interface =>
    unfold Step Sr.apply Sr.srHandlepacket at h
    dsimp only at h
    split at h
    · exact processArpPacket_owned h
    · split at h
      · exact processIpPacket_owned h
      · exact .of_eq (congrArg Sr.trace (Option.some.inj h).symm)

/-! ## What all routers bind -/

variable {ι : Type} {envs : ι → Env} {wire : ι → IfName → Option (ι × IfName)}
  {config : ι → List SrIf × List SrRt}

/-- A datagram announces nothing. -/
theorem not_announces_of_datagram {frame : List UInt8} (datagram : IsDatagram frame) {ip : UInt32}
    {mac : Mac} : ¬ Announces frame ip mac := by
  rintro ⟨env, reply⟩
  have type : ethertype env frame = ethertypeIp := (isDatagram_iff datagram.1).mp datagram
  rw [reply.type] at type
  exact absurd type (by decide)

/-- What routers know of one another's addresses. -/
def announcements (envs : ι → Env) (wire : ι → IfName → Option (ι × IfName))
    (config : ι → List SrIf × List SrRt) :
    Hearsay (sources envs wire config) (UInt32 × Mac) where
  knows _ sr b := sr.Binds b.1 b.2
  tells frame b := Announces frame b.1 b.2
  owns i b := ∃ intf ∈ (config i).1, intf.ip = b.1 ∧ intf.addr = b.2
  learned {i s input t effect b} _ h knows := by
    refine (step_binds (routers_step h).1 knows).imp_right fun came => ?_
    obtain ⟨packet, interface, eq, reply⟩ := came
    cases input with
    | none => cases eq
    | some x =>
      cases eq
      exact ⟨_, _, rfl, envs i, reply⟩
  said {i s input t effect x b} placed h mem tells := by
    obtain ⟨step, effects⟩ := routers_step h
    obtain ⟨es, trace, owned⟩ := step_owned step
    rw [effects es trace] at mem
    obtain ⟨e, mem, some⟩ := List.mem_filterMap.mp mem
    exact placed.ifList ▸ owned e mem x some b.1 b.2 tells
  repeated {m m' b} hop tells := by
    obtain ⟨datagram, i, forwarded⟩ := hop
    exact absurd tells (not_announces_of_datagram (forwarded.datagram datagram).1)

/-- **Nobody makes up an ARP binding.** In every state of a network of routers,
a binding that is valid in some cache was announced by an ARP reply that came
from outside, or it is the interface of one of the routers. -/
theorem network_bindings_announced [DecidableEq ι]
    {events : List (Happening ι IfName (List UInt8))} {net : Net ι Sr IfName (List UInt8)}
    (h : Run (routers envs wire).NetStep (RelayNet.start (fresh config)) events net) (i : ι)
    {ip : UInt32} {mac : Mac} (binds : (net.nodes i).Binds ip mac) :
    (∃ place frame, .inject place frame ∈ events ∧ Announces frame ip mac) ∨
      ∃ j, ∃ intf ∈ (config j).1, intf.ip = ip ∧ intf.addr = mac := by
  refine (announcements envs wire config).sourced (placed_fresh config) not_holds_fresh
    (fun i b knows => ?_) h (k := (ip, mac)) binds
  obtain ⟨e, mem, valid, -⟩ := knows
  have blank := List.eq_of_mem_replicate mem
  rw [blank] at valid
  cases valid

/-- The two routers on one wire know each other. -/
theorem network_bindings_announced_ring :
    ∃ net, Run ringNet.NetStep (RelayNet.start (fresh ring)) ringEvents net ∧
      (net.nodes true).Binds 0x0a000102 (.local 3) ∧
      ((∃ place frame, .inject place frame ∈ ringEvents ∧
          Announces frame 0x0a000102 (.local 3)) ∨
        ∃ left, ∃ intf ∈ (ring left).1, intf.ip = 0x0a000102 ∧ intf.addr = .local 3) := by
  have known : (ringEvents.foldlM ringNet.next (RelayNet.start (fresh ring))).any
      (fun net => (net.nodes true).cache.entries.any fun e =>
        e.valid = true ∧ e.ip = 0x0a000102 ∧ e.mac = .local 3) = true := by
    decide +kernel
  obtain ⟨net, handled, known⟩ := (Option.any_eq_true _ _).mp known
  obtain ⟨e, mem, is⟩ := List.any_eq_true.mp known
  have run : Run ringNet.NetStep (RelayNet.start (fresh ring)) ringEvents net :=
    run_iff_foldlM.mpr handled
  have binds : (net.nodes true).Binds 0x0a000102 (.local 3) := ⟨e, mem, of_decide_eq_true is⟩
  exact ⟨net, run, binds, network_bindings_announced run true binds⟩

end NetLabs.Router
