/-
NetLabs.Vns.Transparency — the runs of listener, switch and routers.

The inputs of a run say which packets the switch sends for a router (`heard`):
those that come in by its ports once it has described itself and the router has
connected. In an orderly run the listener broadcasts these packets and no
others (`heeds_next`), and every session stands where `Bridge` says that it can
stand (`stands_next`). So no router ends or crashes, and a router that knows
its interfaces has handled these packets in order, up to those on the way
(`bridge_transparent`).
-/
import NetLabs.Vns.Bridge

namespace NetLabs.Vns

open NetLabs.Lib NetLabs.Lib.PyStruct NetLabs.Lib.Access NetLabs.Router

/-! ## One input -/

namespace Client

variable (lt : LtProtocol) (c : Client)

theorem perform_setup (op : Op) : (c.perform op).setup = c.setup := by
  rw [perform]
  split <;> rfl

theorem serve_setup (command : Command) : (c.serve command).setup = c.setup := by
  unfold serve
  split
  · rfl
  · dsimp only
    split
    · rfl
    · unfold proceed
      split
      · rfl
      · split <;> rfl
      · rfl
      · split
        · rfl
        · exact perform_setup _ _
      · rfl

theorem send_setup (m : VnsMessage) : (c.send lt m).setup = c.setup := by
  rw [send]
  split
  · split <;> rfl
  · rfl

theorem react_setup (r : Reaction) : (c.react lt r).setup = c.setup := by
  have sends : ∀ (ms : List VnsMessage) (c : Client), (ms.foldl (send lt) c).setup = c.setup := by
    intro ms
    induction ms with
    | nil => exact fun _ => rfl
    | cons m ms ih => exact fun c => (ih _).trans (send_setup lt c m)
  exact sends r.sends c

end Client

/-- What holds between the inputs of an orderly run. -/
structure System.Stands (lt : LtProtocol) (info : List (List UInt8 × Setting))
    (interfaces : List VnsInterface) (s : System) : Prop where
  listener : s.listener = .init ∨ s.listener.Told info interfaces
  clients : ∀ c ∈ s.clients, c.setup.Fit interfaces ∧ Vns.Stands lt s.listener info interfaces c

section

variable {lt : LtProtocol} {info : List (List UInt8 × Setting)} {interfaces : List VnsInterface}
  {s s' : System}

/-- One client changes. -/
theorem System.Stands.set (h : s.Stands lt info interfaces) {i : Nat} {c : Client}
    (fit : c.setup.Fit interfaces) (stands : Vns.Stands lt s.listener info interfaces c) :
    System.Stands lt info interfaces { s with clients := s.clients.set i c } := by
  refine ⟨h.listener, fun c' mem => ?_⟩
  rcases List.mem_or_eq_of_mem_set mem with old | rfl
  · exact h.clients c' old
  · exact ⟨fit, stands⟩

/-- Every input of an orderly run keeps every session where it can stand. -/
theorem stands_next (described : Described info interfaces) (roomy : Roomy interfaces)
    {input : Input} (h : s.Stands lt info interfaces)
    (step : Guarded (Happens lt) (Orderly info interfaces) s input s') :
    s'.Stands lt info interfaces := by
  obtain ⟨step, orderly⟩ := step
  cases input with
  | routerInfo info' =>
    obtain rfl := Option.some.inj step
    obtain rfl : info' = info := orderly
    have told := Listener.handleRouterInfo_told described h.listener
    exact ⟨.inr told, fun c mem => ⟨(h.clients c mem).1, (h.clients c mem).2.routerInfo told⟩⟩
  | packetIn port pkt =>
    obtain rfl := Option.some.inj step
    refine ⟨h.listener, ?_⟩
    dsimp only
    cases name : s.listener.portToIntfname port with
    | none =>
      rw [Listener.handleSRPacketIn, name]
      exact h.clients
    | some intfname =>
      rw [Listener.handleSRPacketIn, name]
      intro c mem
      obtain ⟨old, was, rfl⟩ := List.mem_map.mp mem
      rcases orderly with unknown | ⟨small, announced⟩
      · rw [name] at unknown
        cases unknown
      · obtain ⟨fit, stands⟩ := h.clients old was
        refine ⟨(Client.send_setup lt old _).symm ▸ fit,
          stands.packetIn (announced old was) small ?_⟩
        rcases h.listener with init | told
        · rw [init] at name
          cases name
        · obtain ⟨item, listed, rfl, -⟩ := (told.toName port intfname).mp name
          obtain ⟨m, known, spells⟩ := described.interface listed
          exact ⟨m, known, spells.name⟩
  | connect setup salt =>
    obtain rfl := Option.some.inj step
    obtain ⟨fit, small⟩ := orderly
    refine ⟨h.listener, fun c mem => ?_⟩
    rcases List.mem_append.mp mem with old | new
    · exact h.clients c old
    · rw [List.mem_singleton.mp new]
      exact ⟨(Client.react_setup lt _ _).symm ▸ fit, .connect small⟩
  | listenerReads i text =>
    obtain ⟨c, bytes, rest, found, queue, rfl⟩ := step.listenerReads
    obtain ⟨fit, stands⟩ := h.clients c (List.mem_of_getElem? found)
    exact h.set ((Client.react_setup lt _ _).symm ▸ fit)
      (stands.answered fit roomy described h.listener orderly queue)
  | routerReads i =>
    obtain ⟨c, bytes, rest, command, found, queue, -, cut, rfl⟩ := step.routerReads
    obtain ⟨fit, stands⟩ := h.clients c (List.mem_of_getElem? found)
    exact h.set ((Client.serve_setup _ _).symm ▸ fit) (stands.reads fit roomy queue cut)
  | second i =>
    obtain ⟨c, found, serving, rfl⟩ := step.second
    obtain ⟨fit, stands⟩ := h.clients c (List.mem_of_getElem? found)
    exact h.set ((Client.perform_setup _ _).symm ▸ fit) (stands.second serving)

end

/-! ## What the switch sends -/

/-- The packets that were broadcast to the `i`-th client. -/
def System.packetsTo (s : System) (i : Nat) : List VnsPacket :=
  (s.clients[i]?).elim [] fun c => packetsOf c.sent

section

variable {lt : LtProtocol} {info : List (List UInt8 × Setting)} {interfaces : List VnsInterface}
  {s s' : System}

/-- The listener sends no packet of its own. -/
theorem handleRecvMsg_quiet (l : Listener) (text : List UInt8) (received : Option VnsMessage) :
    ∀ m ∈ (l.handleRecvMsg text received).sends, m.packet? = none := by
  unfold Listener.handleRecvMsg
  split
  · exact List.forall_mem_singleton.mpr rfl
  · rw [Listener.handleOpenMsg]
    split
    · exact List.forall_mem_singleton.mpr rfl
    · exact List.forall_mem_nil _
  · rw [Listener.handlePacketMsg]
    split <;> exact List.forall_mem_nil _
  · exact List.forall_mem_nil _

theorem send_packets {m : VnsMessage} (other : m.packet? = none) (c : Client) :
    packetsOf (c.send lt m).sent = packetsOf c.sent := by
  have none : m.packet?.toList = [] := by rw [other]; rfl
  rw [Client.send]
  split
  · split
    · dsimp only
      rw [packetsOf_append, none, List.append_nil]
    · rfl
  · rfl

theorem react_packets (lt : LtProtocol) (r : Reaction) (quiet : ∀ m ∈ r.sends, m.packet? = none)
    (c : Client) :
    packetsOf (c.react lt r).sent = packetsOf c.sent := by
  have sends (ms : List VnsMessage) (quiet : ∀ m ∈ ms, m.packet? = none) (c : Client) :
      packetsOf (ms.foldl (Client.send lt) c).sent = packetsOf c.sent := by
    induction ms generalizing c with
    | nil => rfl
    | cons m ms ih =>
      rw [List.foldl_cons, ih (fun m' mem => quiet m' (List.mem_cons_of_mem m mem)),
        send_packets (quiet m List.mem_cons_self)]
  exact sends r.sends quiet c

/-- A client that changes, and is sent no packet, leaves what was broadcast. -/
theorem packetsTo_set {j : Nat} {c c' : Client} (found : s.clients[j]? = some c)
    (same : packetsOf c'.sent = packetsOf c.sent) (i : Nat) :
    System.packetsTo { s with clients := s.clients.set j c' } i = s.packetsTo i := by
  rw [System.packetsTo, System.packetsTo, List.getElem?_set]
  by_cases here : j = i
  · subst here
    obtain ⟨bound, -⟩ := List.getElem?_eq_some_iff.mp found
    rw [if_pos rfl, if_pos bound, found]
    exact same
  · rw [if_neg here]

/-- The packet of an input that the listener broadcasts. -/
def System.broadcast (s : System) : Input → Option VnsPacket
  | .packetIn port pkt => (s.listener.portToIntfname port).map fun name => ⟨name, pkt⟩
  | _ => none

/-- An input adds to the packets for a client what the listener broadcasts. -/
theorem packetsTo_next {input : Input}
    (step : Guarded (Happens lt) (Orderly info interfaces) s input s') (i : Nat) :
    s'.packetsTo i = s.packetsTo i ++
      if i < s.clients.length then (s.broadcast input).toList else [] := by
  obtain ⟨step, orderly⟩ := step
  have quiet (h : s'.packetsTo i = s.packetsTo i) (none : s.broadcast input = none) :
      s'.packetsTo i = s.packetsTo i ++
        if i < s.clients.length then (s.broadcast input).toList else [] := by
    rw [h, none, Option.toList_none, ite_self, List.append_nil]
  cases input with
  | routerInfo info' =>
    obtain rfl := Option.some.inj step
    exact quiet rfl rfl
  | packetIn port pkt =>
    obtain rfl := Option.some.inj step
    cases name : s.listener.portToIntfname port with
    | none =>
      refine quiet ?_ (by rw [System.broadcast, name]; rfl)
      rw [Listener.handleSRPacketIn, name]
      rfl
    | some intfname =>
      have small : pkt.length ≤ 9976 := (orderly.resolve_left (by simp [name])).1
      have length : (VnsMessage.packet ⟨intfname, pkt⟩).length = 16 + pkt.length := rfl
      rw [Listener.handleSRPacketIn, name, System.broadcast, name, System.packetsTo,
        System.packetsTo]
      dsimp only [Option.map]
      rw [List.getElem?_map]
      cases found : s.clients[i]? with
      | none =>
        rw [if_neg (Nat.not_lt.mpr (List.getElem?_eq_none_iff.mp found))]
        rfl
      | some c =>
        obtain ⟨bound, -⟩ := List.getElem?_eq_some_iff.mp found
        rw [if_pos bound, Option.map_some, Option.elim_some, Option.elim_some,
          send_eq (m := .packet ⟨intfname, pkt⟩) (pack_packet intfname pkt) (by omega)]
        exact packetsOf_append _ _
  | connect setup salt =>
    obtain rfl := Option.some.inj step
    refine quiet ?_ rfl
    rw [System.packetsTo, System.packetsTo]
    dsimp only
    rw [List.getElem?_append]
    split
    · rfl
    · rename_i late
      rw [List.getElem?_eq_none (Nat.not_lt.mp late), List.getElem?_singleton]
      split
      · exact react_packets lt (handleNewClient salt) (List.forall_mem_singleton.mpr rfl) _
      · rfl
  | listenerReads j text =>
    obtain ⟨c, bytes, rest, found, -, rfl⟩ := step.listenerReads
    have same := react_packets lt (s.listener.handleRecvMsg text (received bytes))
      (handleRecvMsg_quiet s.listener text _) { c with toServer := rest }
    exact quiet (packetsTo_set found same i) rfl
  | routerReads j =>
    obtain ⟨c, bytes, rest, command, found, -, -, -, rfl⟩ := step.routerReads
    exact quiet (packetsTo_set found (by rw [(Client.serve_sent _ command).1]) i) rfl
  | second j =>
    obtain ⟨c, found, -, rfl⟩ := step.second
    exact quiet (packetsTo_set found (by rw [(Client.perform_cases c .timeout).1]) i) rfl

theorem setups_set {j : Nat} {c c' : Client} (found : s.clients[j]? = some c)
    (same : c'.setup = c.setup) :
    (s.clients.set j c').map Client.setup = s.clients.map Client.setup := by
  have here : (s.clients.map Client.setup)[j]? = some c'.setup := by
    rw [List.getElem?_map, found, same]
    rfl
  rw [List.map_set]
  apply List.ext_getElem?
  intro i
  rw [List.getElem?_set]
  split
  · rename_i eq
    obtain ⟨bound, -⟩ := List.getElem?_eq_some_iff.mp here
    rw [if_pos bound, ← eq, here]
  · rfl

/-- The clients are the routers that have connected, and only the switch tells
the listener anything. -/
theorem clients_next {input : Input} (step : Happens lt s input s') :
    s'.clients.map Client.setup = s.clients.map Client.setup ++ input.setup?.toList ∧
      ((∀ info, input ≠ .routerInfo info) → s'.listener = s.listener) := by
  cases input with
  | routerInfo info' =>
    obtain rfl := Option.some.inj step
    exact ⟨(List.append_nil _).symm, fun other => absurd rfl (other info')⟩
  | packetIn port pkt =>
    obtain rfl := Option.some.inj step
    refine ⟨?_, fun _ => rfl⟩
    have kept (m : VnsMessage) :
        (s.clients.map (·.send lt m)).map Client.setup = s.clients.map Client.setup := by
      rw [List.map_map]
      exact List.map_congr_left fun c _ => Client.send_setup lt c m
    refine Eq.trans ?_ (List.append_nil _).symm
    dsimp only
    split
    · rfl
    · exact kept _
  | connect setup salt =>
    obtain rfl := Option.some.inj step
    refine ⟨?_, fun _ => rfl⟩
    dsimp only
    rw [List.map_append, List.map_singleton, Client.react_setup]
    rfl
  | listenerReads j text =>
    obtain ⟨c, bytes, rest, found, -, rfl⟩ := step.listenerReads
    have same := Client.react_setup lt { c with toServer := rest }
      (s.listener.handleRecvMsg text (received bytes))
    exact ⟨(setups_set found same).trans (List.append_nil _).symm, fun _ => rfl⟩
  | routerReads j =>
    obtain ⟨c, bytes, rest, command, found, -, -, -, rfl⟩ := step.routerReads
    have same := Client.serve_setup { c with toRouter := rest } command
    exact ⟨(setups_set found same).trans (List.append_nil _).symm, fun _ => rfl⟩
  | second j =>
    obtain ⟨c, found, -, rfl⟩ := step.second
    exact ⟨(setups_set found (Client.perform_setup _ _)).trans (List.append_nil _).symm,
      fun _ => rfl⟩

/-- A listener that was told broadcasts a packet under the name the description
gives its port. -/
theorem broadcast_named (told : s.listener.Told info interfaces) (port : Nat) (pkt : List UInt8) :
    s.broadcast (.packetIn port pkt) = named info port pkt := by
  rw [System.broadcast, named]
  cases found : info.find? fun item => item.2.port = port with
  | none =>
    cases name : s.listener.portToIntfname port with
    | none => rfl
    | some intfname =>
      obtain ⟨item, listed, -, same⟩ := (told.toName port intfname).mp name
      exact absurd (decide_eq_true same) (List.find?_eq_none.mp found item listed)
  | some item =>
    have same : item.2.port = port := by simpa using List.find?_some found
    rw [(told.toName port item.1).mpr ⟨item, List.mem_of_find?_eq_some found, rfl, same⟩]
    rfl

/-- What the listener knows behind the inputs, and what it has broadcast to the
`i`-th client. -/
structure System.Heeds (info : List (List UInt8 × Setting)) (interfaces : List VnsInterface)
    (i : Nat) (inputs : List Input) (s : System) : Prop where
  setups : s.clients.map Client.setup = inputs.filterMap Input.setup?
  routers : (heard info i inputs).routers = s.clients.length
  listener : if (heard info i inputs).told then s.listener.Told info interfaces
    else s.listener = .init
  packets : s.packetsTo i = (heard info i inputs).packets

theorem heeds_next (described : Described info interfaces) {i : Nat} {inputs : List Input}
    {input : Input} (h : s.Heeds info interfaces i inputs)
    (step : Guarded (Happens lt) (Orderly info interfaces) s input s') :
    s'.Heeds info interfaces i (inputs ++ [input]) := by
  have snoc : heard info i (inputs ++ [input]) = (heard info i inputs).next info i input :=
    List.foldl_append
  have setups := (clients_next step.1).1
  have routers : ((heard info i inputs).next info i input).routers =
      (heard info i inputs).routers + input.setup?.toList.length := by
    cases input with
    | packetIn port pkt =>
      rw [Heard.next]
      split <;> rfl
    | _ => rfl
  have count := congrArg List.length setups
  rw [List.length_map, List.length_append, List.length_map] at count
  have listener : if ((heard info i inputs).next info i input).told then
      s'.listener.Told info interfaces else s'.listener = .init := by
    have before := h.listener
    cases input with
    | routerInfo info' =>
      obtain rfl : info' = info := step.2
      obtain rfl := Option.some.inj step.1
      refine Listener.handleRouterInfo_told described ?_
      split at before
      · exact .inr before
      · exact .inl before
    | packetIn port pkt =>
      rw [(clients_next step.1).2 (fun _ => Input.noConfusion), Heard.next]
      split <;> exact before
    | _ =>
      rw [(clients_next step.1).2 (fun _ => Input.noConfusion)]
      exact before
  refine ⟨?_, ?_, snoc ▸ listener, ?_⟩
  · rw [setups, h.setups, List.filterMap_append]
    cases input <;> rfl
  · rw [snoc, routers, count, h.routers]
  · rw [packetsTo_next step, h.packets, snoc]
    cases input with
    | packetIn port pkt =>
      have before := h.listener
      rw [Heard.next, h.routers]
      by_cases told : (heard info i inputs).told
      · rw [if_pos told] at before
        rw [broadcast_named before]
        by_cases connected : i < s.clients.length
        · rw [if_pos connected, if_pos ⟨told, connected⟩]
        · rw [if_neg connected, if_neg fun both => connected both.2, List.append_nil]
      · rw [if_neg told] at before
        have silent : s.broadcast (.packetIn port pkt) = none := by
          rw [System.broadcast, before]
          rfl
        rw [silent, Option.toList_none, ite_self, List.append_nil, if_neg fun both => told both.1]
    | _ => simp [System.broadcast, Heard.next]

/-- **The bridge is transparent.** In an orderly run no router ends or crashes.
The `i`-th router to connect, once it knows its interfaces, has handled the
packets the switch sent for it as a router attached to the switch does, up to
those in the queue to it, and what it has sent has come out of the ports of the
switch, up to the packets in the queue from it. -/
theorem bridge_transparent (lt : LtProtocol) (described : Described info interfaces)
    (roomy : Roomy interfaces) {inputs : List Input}
    (run : Run (Guarded (Happens lt) (Orderly info interfaces)) .start inputs s) {i : Nat}
    {c : Client} (client : s.clients[i]? = some c) :
    (inputs.filterMap Input.setup?)[i]? = some c.setup ∧ c.phase.Alive ∧
    (c.sr.ifList ≠ [] → ∃ read waiting done pend,
      Bridged info interfaces c (heard info i inputs).packets read waiting done pend ∧
      (c.toRouter = waiting.map fun p => wire lt (.packet p)) ∧
      c.toServer = pend.map fun f => packetBytes f.1 f.2) := by
  have stands : s.Stands lt info interfaces := run.invariant (System.Stands lt info interfaces)
    ⟨.inl rfl, fun _ mem => absurd mem List.not_mem_nil⟩ (stands_next described roomy)
  have start : System.start.Heeds info interfaces i [] :=
    ⟨rfl, rfl, (if_neg Bool.false_ne_true).mpr rfl, rfl⟩
  have heeds : s.Heeds info interfaces i inputs := run.history (System.Heeds info interfaces i)
    start fun _ h step => heeds_next described h step
  have setup : (inputs.filterMap Input.setup?)[i]? = some c.setup := by
    rw [← heeds.setups, List.getElem?_map, client]
    rfl
  have packets : packetsOf c.sent = (heard info i inputs).packets := by
    rw [← heeds.packets, System.packetsTo, client]
    rfl
  refine ⟨setup, ?_⟩
  cases (stands.clients c (List.mem_of_getElem? client)).2 with
  | asked salt phase toRouter small toServer fresh =>
    rw [phase, fresh.sr]
    exact ⟨trivial, fun some => absurd rfl some⟩
  | replied digest phase toRouter toServer fresh =>
    rw [phase, fresh.sr]
    exact ⟨trivial, fun some => absurd rfl some⟩
  | authenticated text phase toRouter small toServer fresh =>
    rw [phase, fresh.sr]
    exact ⟨trivial, fun some => absurd rfl some⟩
  | opening phase toRouter toServer unannounced idle =>
    rw [phase]
    exact ⟨trivial, fun some => absurd idle.ifList some⟩
  | announced waiting queue phase toRouter way toServer sent idle =>
    rw [phase]
    exact ⟨trivial, fun some => absurd idle.ifList some⟩
  | bridging read waiting done pend phase way toServer inv ifList bridged =>
    rw [phase]
    exact ⟨trivial, fun _ => ⟨read, waiting, done, pend, packets ▸ bridged, way.queue, toServer⟩⟩

end

def sampleInterface : VnsInterface :=
  { eth1 with mask := [255, 255, 255, 255], maskSize := rfl }

/-- The router of `sampleInputs` gets a packet, and asks for its next hop. -/
def bridgedInputs : List Input :=
  sampleInputs ++ [.packetIn 3 (udpFrame (.local 7) 1), .routerReads 0, .listenerReads 0 []]

/-- Where a packet comes, every client has been sent its interfaces. -/
def announcedTo (s : System) : Input → Bool
  | .packetIn _ _ => s.clients.all fun c => c.sent.any fun m =>
      match m with
      | .hardwareInfo _ => true
      | _ => false
  | _ => true

theorem announced_of_announcedTo {port : Nat} {pkt : List UInt8} {s : System}
    (h : announcedTo s (.packetIn port pkt) = true) : ∀ c ∈ s.clients, c.Announced := by
  intro c mem
  obtain ⟨m, sent, kind⟩ := List.any_eq_true.mp (List.all_eq_true.mp h c mem)
  cases m with
  | hardwareInfo info => exact ⟨info, sent⟩
  | _ => cases kind

theorem sampleSetup_fit : sampleSetup.Fit [sampleInterface] where
  plain := rfl
  opens := rfl
  memory := rfl
  replies salt := by
    have sent : ∀ reply, sampleSetup.login.send reply = (reply.length : Int) := fun _ => rfl
    simp only [Login.replies, show sampleSetup.login.keyBytes = some _ from rfl, sent,
      length_replyBytes]
    rfl
  user := by decide
  verified := by decide

theorem bridge_transparent_sample :
    ∃ s, Run (Guarded (Happens .plain) (Orderly sampleInfo [sampleInterface])) .start bridgedInputs
        s ∧ ∃ c, s.clients[0]? = some c ∧ (c.sr.ifList ≠ [] ∧ c.packetsOut.length = 1) ∧
      (heard sampleInfo 0 bridgedInputs).packets = [⟨[101, 116, 104, 49], udpFrame (.local 7) 1⟩] ∧
      (bridgedInputs.filterMap Input.setup?)[0]? = some c.setup ∧ c.phase.Alive ∧
      (c.sr.ifList ≠ [] → ∃ read waiting done pend,
        Bridged sampleInfo [sampleInterface] c (heard sampleInfo 0 bridgedInputs).packets
          read waiting done pend ∧
        (c.toRouter = waiting.map fun p => wire .plain (.packet p)) ∧
        c.toServer = pend.map fun f => packetBytes f.1 f.2) := by
  have up : (bridgedInputs.foldlM (fun s i => if announcedTo s i then next .plain s i else none)
      .start).any (fun s => (s.clients[0]?).any fun c =>
        c.sr.ifList ≠ [] ∧ c.packetsOut.length = 1) = true := by
    decide +kernel
  obtain ⟨s, handled, up⟩ := (Option.any_eq_true _ _).mp up
  obtain ⟨c, client, up⟩ := (Option.any_eq_true _ _).mp up
  have run : Run (Guarded (Happens .plain) (Orderly sampleInfo [sampleInterface])) .start
      bridgedInputs s := by
    refine run_guarded announcedTo ?_ handled
    have two : ([104, 105] : List UInt8).length ≤ 9991 := by decide
    have empty : ([] : List UInt8).length ≤ 9991 := by decide
    have small : (udpFrame (.local 7) 1).length ≤ 9976 := by decide +kernel
    simp only [bridgedInputs, sampleInputs, List.cons_append, List.nil_append, List.forall_mem_cons]
    exact ⟨fun _ _ => ⟨sampleSetup_fit, by decide⟩, fun _ _ => rfl, fun _ _ => trivial,
      fun _ _ => two, fun _ _ => trivial, fun _ _ => empty, fun _ _ => trivial,
      fun _ h => .inr ⟨small, announced_of_announcedTo h⟩, fun _ _ => trivial,
      fun _ _ => empty, fun _ mem => absurd mem List.not_mem_nil⟩
  have described : Described sampleInfo [sampleInterface] :=
    ⟨.cons ⟨rfl, by decide, by decide, rfl⟩ .nil, by decide, by decide⟩
  have roomy : Roomy [sampleInterface] := ⟨by decide, by decide⟩
  exact ⟨s, run, c, client, of_decide_eq_true up, by decide +kernel,
    bridge_transparent .plain described roomy run client⟩

end NetLabs.Vns
