/-
NetLabs.Ctcp.ConnectionTable — how many connections a server counts.

`tcp_new_connection` counts every client it accepts in `num_connected`, and
nothing ever takes one off again. It also accepts every `SYN`: one that is
sent twice makes two connections, because only other packets are looked up in
the list. So the counter, the list and the limit agree as long as no peer is
accepted again and no connection is removed, which is `Orderly`, and not
beyond the first iteration that is not (`table_consistent`).
-/
import NetLabs.Ctcp.MainLoop

namespace NetLabs.Ctcp

open NetLabs.Lib

/-! ## Peers -/

/-- The address and the port of a peer. -/
abbrev Peer : Type := UInt32 × Int

def Connection.peer (c : Connection) : Peer := (c.conn.ipAddr, c.conn.port)

def Packet.peer (packet : Packet) : Peer := (packet.saddr, packet.thSport.toNat)

def Loop.peers (l : Loop) : List Peer := l.connections.map Connection.peer

namespace Host

variable {h : Host} {p : Polled} {l l' : Loop}

/-- The counter is that of the list, no peer is connected twice, and a new
peer is refused only if there are `MAX_NUM_CLIENTS` connections. -/
structure Consistent (h : Host) (l : Loop) : Prop where
  count : l.numConnected = l.connections.length
  peers : l.peers.Nodup
  refusal : ∀ packet : Packet, packet.peer ∉ l.peers →
    (h.tcpNewConnection l packet).connections = l.connections →
    l.connections.length = maxNumClients

/-- What is received is a `SYN` for this server. -/
def IsSyn (h : Host) (buf : List UInt8) : Prop :=
  fullHdrSize ≤ buf.length ∧ (packetOf buf).thDport = UInt16.ofInt h.config.port ∧
    (packetOf buf).thFlags &&& thRst = 0 ∧ (packetOf buf).thFlags &&& thSyn ≠ 0

/-- A connection is made for it. -/
def Accepts (h : Host) (l : Loop) (buf : List UInt8) : Prop :=
  h.IsSyn buf ∧ l.numConnected < maxNumClients

/-- An iteration up to `delete_all_connections`. -/
def callbacks (h : Host) (l : Loop) (p : Polled) : Except Halt Loop := do
  let l ← h.inputs p l
  let l ← h.receive p l
  h.checkTimer p l

/-- Behind the callbacks an iteration deletes the connections that are marked. -/
theorem doLoop_eq (h : Host) (l : Loop) (p : Polled) :
    h.doLoop l p = (h.callbacks l p).map deleteAllConnections := by
  rw [doLoop, callbacks]
  cases h.inputs p l with
  | error => rfl
  | ok l₁ =>
    show (h.receive p l₁ >>= fun l => h.checkTimer p l >>= _) =
      (h.receive p l₁ >>= h.checkTimer p).map _
    cases h.receive p l₁ with
    | error => rfl
    | ok l₂ =>
      show (h.checkTimer p l₂ >>= _) = (h.checkTimer p l₂).map _
      cases h.checkTimer p l₂ <;> rfl

/-- Nobody connects who is connected, and no connection comes to its end. -/
def Orderly (h : Host) (l : Loop) (p : Polled) : Prop :=
  (∀ buf, p.packet = some buf → h.Accepts l buf → (packetOf buf).peer ∉ l.peers) ∧
    ∀ l', h.callbacks l p = .ok l' → ∀ c ∈ l'.connections, c.deleteMe = false

/-! ## What an iteration does to the table -/

/-- What no callback changes of a connection. -/
def key (c : Connection) : Nat × Conn := (c.id, c.conn)

theorem ends_used {c : Connection} {u : Use} {P : Unit → Prop} (used : P ()) :
    Ends (fun _ => True) P (c.use u) := by
  rw [Connection.use]
  split
  · exact used
  · trivial

theorem callback_key {u : Use} {c : Connection} {call : Call} :
    Ends (fun _ => True) (fun c' => key c' = key c) (h.callback u c call) := by
  rw [callback, ends_bind]
  refine ends_used ?_
  split
  · trivial
  · split
    · rfl
    · split
      · rfl
      · trivial

theorem ctcpRead_key {c : Connection} {i : Input} :
    Ends (fun _ => True) (fun c' => key c' = key c) (h.ctcpRead c i) := by
  rw [ctcpRead, ends_bind]
  refine ends_used ?_
  exact Ends.foldlM (fun _ _ _ same => callback_key.imp fun _ h => h.trans same) rfl

theorem readStdin_key {cs : List Connection} :
    Ends (fun _ => True) (fun cs' => cs'.map key = cs.map key) (h.readStdin p cs) := by
  cases cs with
  | nil => rfl
  | cons c rest =>
    rw [readStdin]
    split
    · rw [ends_ite, ends_ok, ends_map]
      refine ⟨fun _ => rfl, fun _ => ctcpRead_key.imp fun c' same => ?_⟩
      rw [List.map_cons, List.map_cons, same]
    · rfl

theorem connDrain_key {c : Connection} :
    Ends (fun _ => True) (fun c' => key c' = key c) (h.connDrain p c) := by
  rw [connDrain, ends_ite]
  exact ⟨fun _ => callback_key, fun _ => rfl⟩

theorem readProgram_key {c : Connection} :
    Ends (fun _ => True) (fun c' => key c' = key c) (h.readProgram p c) := by
  rw [readProgram]
  split
  · rw [ends_ite]
    exact ⟨fun _ => ctcpRead_key, fun _ => rfl⟩
  · rfl

theorem timerVisit_key {c : Connection} :
    Ends (fun _ => True) (fun c' => key c' = key c) (h.timerVisit c) := by
  rw [timerVisit, ends_ite, ends_bind]
  refine ⟨fun _ => callback_key.imp fun c' same => ?_, fun _ => rfl⟩
  rw [ends_bind]
  exact ends_used same

/-- The connections are the same, and so is the counter. -/
structure SameTable (l l' : Loop) : Prop where
  keys : l'.connections.map key = l.connections.map key
  count : l'.numConnected = l.numConnected

theorem inputs_same : Ends (fun _ => True) (SameTable l) (h.inputs p l) := by
  rw [inputs, ends_bind]
  refine readStdin_key.imp fun cs₁ same₁ => ?_
  rw [ends_bind]
  refine (Ends.mapM_map fun _ => connDrain_key).imp fun cs₂ same₂ => ?_
  rw [ends_bind]
  refine (Ends.mapM_map fun _ => readProgram_key).imp fun cs₃ same₃ => ?_
  exact ⟨same₃.trans (same₂.trans same₁), rfl⟩

theorem checkTimer_same : Ends (fun _ => True) (SameTable l) (h.checkTimer p l) := by
  rw [checkTimer, ends_ite, ends_bind]
  refine ⟨fun _ => (Ends.mapM_map fun _ => timerVisit_key).imp fun cs same => ?_,
    fun _ => ⟨rfl, rfl⟩⟩
  rw [ends_bind, ends_returned]
  intro lost _
  exact ⟨same, rfl⟩

/-! ## The socket -/

theorem recvFilter_isSyn {cs : List Connection} {buf : List UInt8} (syn : h.IsSyn buf) :
    h.recvFilter cs buf = .ok (buf.length, none) := by
  obtain ⟨long, port, noRst, syn⟩ := syn
  rw [recvFilter, if_neg (by omega), if_neg (not_not.mpr port), if_neg (not_not.mpr noRst),
    if_pos syn]

theorem isSyn_of_recvFilter {cs : List Connection} {buf : List UInt8} {len : Nat}
    {c : Option Connection} (found : h.recvFilter cs buf = .ok (len, c)) (long : fullHdrSize ≤ len)
    (syn : (packetOf buf).thFlags &&& thSyn ≠ 0) : h.IsSyn buf := by
  rw [recvFilter] at found
  split_ifs at found with short other rst
  · obtain ⟨rfl, -⟩ := Prod.mk.inj (Except.ok.inj found)
    exact absurd long (by decide)
  · obtain ⟨rfl, -⟩ := Prod.mk.inj (Except.ok.inj found)
    exact absurd long (by decide)
  · exact ⟨Nat.le_of_not_lt short, not_not.mp other, not_not.mp rst, syn⟩

/-- A connection is replaced by what a callback made of it. -/
theorem update_keys {cs : List Connection} {c c' : Connection}
    (ids : (cs.map Connection.id).Nodup) (mem : c ∈ cs) (same : key c' = key c) :
    (cs.map fun x => if x.id = c.id then c' else x).map key = cs.map key := by
  rw [List.map_map]
  refine List.map_congr_left fun x hx => ?_
  rw [Function.comp_apply]
  split
  · rename_i sameId
    rw [List.inj_on_of_nodup_map ids hx mem sameId, same]
  · rfl

/-- The packet makes a connection, or the table stays as it is. -/
theorem receive_table (ids : (l.connections.map Connection.id).Nodup) :
    Ends (fun _ => True)
      (fun l' => (∃ buf, p.packet = some buf ∧ h.Accepts l buf ∧
          l' = h.tcpNewConnection l (packetOf buf)) ∨
        (∀ buf, p.packet = some buf → ¬ h.Accepts l buf) ∧ SameTable l l') (h.receive p l) := by
  rw [receive]
  cases packet : p.packet with
  | none =>
    refine .inr ⟨fun buf held => ?_, rfl, rfl⟩
    cases held
  | some buf =>
    rw [ends_bind, ends_returned]
    rintro ⟨len, conn⟩ found
    dsimp only
    have accepted (accepts : h.Accepts l buf) : len = buf.length ∧ conn = none := by
      have same := Except.ok.inj (found.symm.trans (recvFilter_isSyn accepts.1))
      obtain ⟨rfl, rfl⟩ := Prod.mk.inj same
      exact ⟨rfl, rfl⟩
    have stays {l' : Loop} (refused : ¬ h.Accepts l buf) (same : SameTable l l') :
        (∃ buf', some buf = some buf' ∧ h.Accepts l buf' ∧
            l' = h.tcpNewConnection l (packetOf buf')) ∨
          (∀ buf', some buf = some buf' → ¬ h.Accepts l buf') ∧ SameTable l l' := by
      refine .inr ⟨fun buf' same' => ?_, same⟩
      obtain rfl := Option.some.inj same'
      exact refused
    split
    · rename_i short
      refine stays (fun accepts => ?_) ⟨rfl, rfl⟩
      have long := accepts.1.1
      rw [← (accepted accepts).1] at long
      omega
    · rename_i long
      split
      · rename_i c
        have refused : ¬ h.Accepts l buf := fun accepts => by cases (accepted accepts).2
        split
        · exact stays refused ⟨rfl, rfl⟩
        · rw [ends_bind]
          refine callback_key.imp fun c' same => stays refused ⟨?_, rfl⟩
          exact update_keys ids (recvFilter_some found).1 same
      · rw [ends_ok]
        split
        · rename_i syn
          by_cases room : l.numConnected < maxNumClients
          · have isSyn := isSyn_of_recvFilter found (Nat.le_of_not_lt long) syn
            exact .inl ⟨buf, rfl, ⟨isSyn, room⟩, rfl⟩
          · refine stays (fun accepts => room accepts.2) ?_
            rw [tcpNewConnection, if_neg fun h => room h.2]
            exact ⟨rfl, rfl⟩
        · rename_i syn
          exact stays (fun accepts => syn accepts.1.2.2.2) ⟨rfl, rfl⟩

/-! ## The table -/

/-- What holds of the table in an orderly run besides `Consistent`. -/
structure Table (l : Loop) : Prop where
  count : l.numConnected = l.connections.length
  ids : (l.connections.map Connection.id).Nodup
  below : ∀ id ∈ l.connections.map Connection.id, id < l.numConnected
  bounded : l.numConnected ≤ maxNumClients

theorem SameTable.ids (same : SameTable l l') :
    l'.connections.map Connection.id = l.connections.map Connection.id := by
  have := congrArg (List.map Prod.fst) same.keys
  rwa [List.map_map, List.map_map] at this

theorem SameTable.peers (same : SameTable l l') : l'.peers = l.peers := by
  have := congrArg (List.map fun k : Nat × Conn => ((k.2.ipAddr, k.2.port) : Peer)) same.keys
  rwa [List.map_map, List.map_map] at this

theorem SameTable.length (same : SameTable l l') :
    l'.connections.length = l.connections.length := by
  simpa using congrArg List.length same.keys

theorem Table.same (table : Table l) (same : SameTable l l') : Table l' := by
  obtain ⟨count, ids, below, bounded⟩ := table
  constructor
  · rw [same.count, same.length, count]
  · rwa [same.ids]
  · rwa [same.ids, same.count]
  · rwa [same.count]

/-- The table after a client was accepted. -/
theorem table_accept {packet : Packet} (table : Table l) (server : h.server = true)
    (room : l.numConnected < maxNumClients) :
    Table (h.tcpNewConnection l packet) ∧
      (h.tcpNewConnection l packet).peers = packet.peer :: l.peers := by
  obtain ⟨count, ids, below, bounded⟩ := table
  rw [tcpNewConnection, if_pos ⟨server, room⟩]
  refine ⟨⟨congrArg Nat.succ count, ?_, ?_, room⟩, rfl⟩
  · exact List.nodup_cons.mpr ⟨fun mem => Nat.lt_irrefl _ (below _ mem), ids⟩
  · refine List.forall_mem_cons.mpr ⟨Nat.lt_succ_self _, fun id mem => ?_⟩
    exact Nat.lt_succ_of_lt (below id mem)

/-- The limit is what it says as long as the counter is. -/
theorem consistent_of_table (server : h.server = true) (table : Table l) (peers : l.peers.Nodup) :
    h.Consistent l := by
  refine ⟨table.count, peers, fun packet _ refused => ?_⟩
  by_contra fewer
  have room : l.numConnected < maxNumClients := by
    have := table.bounded
    have := table.count
    omega
  rw [tcpNewConnection, if_pos ⟨server, room⟩] at refused
  exact absurd (congrArg List.length refused) (by simp)

/-! ## Removal -/

theorem delete_unmarked (unmarked : ∀ c ∈ l.connections, c.deleteMe = false) :
    deleteAllConnections l = l := by
  have kept : l.connections.filter (fun c => !c.deleteMe) = l.connections :=
    List.filter_eq_self.mpr fun c hc => by rw [unmarked c hc]; rfl
  have first : l.connections.head?.any Connection.deleteMe = false := by
    cases h : l.connections with
    | nil => rfl
    | cons c rest => exact unmarked c (h ▸ List.mem_cons_self)
  rw [deleteAllConnections, first, kept]
  rfl

theorem length_delete_lt {c : Connection} (mem : c ∈ l.connections) (marked : c.deleteMe = true) :
    (deleteAllConnections l).connections.length < l.connections.length := by
  rw [deleteAllConnections]
  split
  · exact List.length_pos_of_mem mem
  · exact List.length_filter_lt_length_iff_exists.mpr ⟨c, mem, by simp [marked]⟩

theorem count_delete : (deleteAllConnections l).numConnected = l.numConnected := by
  rw [deleteAllConnections]
  split <;> rfl

/-! ## Runs -/

theorem callbacks_table {l₃ : Loop} (server : h.server = true) (table : Table l)
    (run : h.callbacks l p = .ok l₃) :
    Table l₃ ∧ ((∃ buf, p.packet = some buf ∧ h.Accepts l buf ∧
        l₃.peers = (packetOf buf).peer :: l.peers) ∨
      (∀ buf, p.packet = some buf → ¬ h.Accepts l buf) ∧ l₃.peers = l.peers) := by
  obtain ⟨l₁, input, run⟩ := ok_of_bind run
  obtain ⟨l₂, received, checked⟩ := ok_of_bind run
  have same₁ : SameTable l l₁ := inputs_same.returned input
  have same₃ : SameTable l₂ l₃ := checkTimer_same.returned checked
  have table₁ := table.same same₁
  have accepts (buf : List UInt8) : h.Accepts l₁ buf ↔ h.Accepts l buf := by
    rw [Accepts, Accepts, same₁.count]
  rcases (receive_table table₁.ids).returned received with
    ⟨buf, packet, accepted, rfl⟩ | ⟨refused, same₂⟩
  · obtain ⟨table₂, peers⟩ : Table (h.tcpNewConnection l₁ (packetOf buf)) ∧ _ :=
      table_accept table₁ server accepted.2
    refine ⟨table₂.same same₃, .inl ⟨buf, packet, (accepts buf).mp accepted, ?_⟩⟩
    rw [same₃.peers, peers, same₁.peers]
  · refine ⟨(table₁.same same₂).same same₃, .inr ⟨fun buf packet accepted => ?_, ?_⟩⟩
    · exact refused buf packet ((accepts buf).mpr accepted)
    · rw [same₃.peers, same₂.peers, same₁.peers]

/-- One iteration keeps the table exactly if it is orderly. -/
theorem doLoop_table (server : h.server = true) (table : Table l) (peers : l.peers.Nodup)
    (step : h.Step l p l') :
    (h.Orderly l p → Table l' ∧ l'.peers.Nodup) ∧ (h.Consistent l' → h.Orderly l p) := by
  obtain ⟨l₃, run, rfl⟩ : ∃ l₃, h.callbacks l p = .ok l₃ ∧ deleteAllConnections l₃ = l' := by
    rw [Step, doLoop_eq] at step
    cases run : h.callbacks l p with
    | error =>
      rw [run] at step
      cases step
    | ok l₃ =>
      rw [run] at step
      exact ⟨l₃, rfl, Except.ok.inj step⟩
  obtain ⟨table₃, change⟩ := callbacks_table server table run
  constructor
  · rintro ⟨fresh, unmarked⟩
    rw [delete_unmarked (unmarked l₃ run)]
    refine ⟨table₃, ?_⟩
    rcases change with ⟨buf, packet, accepted, after⟩ | ⟨-, after⟩
    · rw [after]
      exact List.nodup_cons.mpr ⟨fresh buf packet accepted, peers⟩
    · rwa [after]
  · intro consistent
    have unmarked : ∀ c ∈ l₃.connections, c.deleteMe = false := by
      intro c mem
      by_contra marked
      have fewer := length_delete_lt mem (Bool.eq_true_of_not_eq_false marked)
      rw [← consistent.count, count_delete, table₃.count] at fewer
      exact Nat.lt_irrefl _ fewer
    constructor
    · intro buf packet accepted
      rcases change with ⟨buf', packet', -, after⟩ | ⟨refused, -⟩
      · obtain rfl := Option.some.inj (packet.symm.trans packet')
        have distinct := consistent.peers
        rw [delete_unmarked unmarked, after] at distinct
        exact (List.nodup_cons.mp distinct).1
      · exact absurd accepted (refused buf packet)
    · intro l₃' run'
      obtain rfl := Except.ok.inj (run.symm.trans run')
      exact unmarked

end Host

/-- In every run of a server whose iterations are orderly the table is
consistent, and the next iteration leaves it so exactly if it is orderly. -/
theorem table_consistent {h : Host} (server : h.server = true) {conn : Conn} {config : CtcpConfig}
    {ps : List Polled} {l : Loop}
    (run : Run (Guarded h.Step h.Orderly) (h.start conn config) ps l) :
    h.Consistent l ∧ ∀ p l', h.Step l p l' → (h.Consistent l' ↔ h.Orderly l p) := by
  have inv : Host.Table l ∧ l.peers.Nodup := by
    refine Run.invariant (fun l => Host.Table l ∧ l.peers.Nodup) ?_ ?_ run
    · rw [Host.start, if_pos server]
      exact ⟨⟨rfl, List.nodup_nil, List.forall_mem_nil _, Nat.zero_le _⟩, List.nodup_nil⟩
    · rintro l p l' ⟨table, peers⟩ ⟨step, orderly⟩
      exact (Host.doLoop_table server table peers step).1 orderly
  refine ⟨Host.consistent_of_table server inv.1 inv.2, fun p l' step => ?_⟩
  obtain ⟨keeps, only⟩ := Host.doLoop_table server inv.1 inv.2 step
  constructor
  · exact only
  · intro orderly
    exact Host.consistent_of_table server (keeps orderly).1 (keeps orderly).2

/-- A client at port 1 connects. -/
def synPoll : Polled :=
  { Polled.idle with
    packet := some (List.replicate 20 0 ++
      [0, 1, 0, 80, 0, 0, 0, 0, 0, 0, 0, 0, 0x50, 2, 5, 0xa0, 0, 0, 0, 0]) }

theorem table_consistent_accepted :
    ∃ l,
      (Host.plain true).doLoop ((Host.plain true).start ⟨0, 0, 0, 0⟩ ⟨1440, 200⟩) synPoll = .ok l ∧
      (Host.plain true).Consistent l ∧
      ∀ p l', (Host.plain true).Step l p l' →
        ((Host.plain true).Consistent l' ↔ (Host.plain true).Orderly l p) := by
  have returns : ((Host.plain true).doLoop
      ((Host.plain true).start ⟨0, 0, 0, 0⟩ ⟨1440, 200⟩) synPoll).isOk = true := by
    decide +kernel
  have unmarked : ((Host.plain true).callbacks
      ((Host.plain true).start ⟨0, 0, 0, 0⟩ ⟨1440, 200⟩) synPoll).map
        (fun l => l.connections.all fun c => !c.deleteMe) = .ok true := by
    decide +kernel
  obtain ⟨l, hl⟩ := exists_of_isOk returns
  have orderly : (Host.plain true).Orderly
      ((Host.plain true).start ⟨0, 0, 0, 0⟩ ⟨1440, 200⟩) synPoll := by
    refine ⟨fun _ _ _ => List.not_mem_nil, fun l' run c mem => ?_⟩
    rw [run] at unmarked
    simpa using List.all_eq_true.mp (Except.ok.inj unmarked) c mem
  exact ⟨l, hl, table_consistent rfl (.single ⟨hl, orderly⟩)⟩

/-- A `SYN` that is sent twice makes two connections with one peer. -/
theorem duplicate_syn_accepted :
    ¬ ∀ (ps : List Polled) (l : Loop),
      Run (Host.plain true).Step ((Host.plain true).start ⟨0, 0, 0, 0⟩ ⟨1440, 200⟩) ps l →
        (Host.plain true).Consistent l := by
  intro general
  have twice : ([synPoll, synPoll].foldlM (Host.plain true).doLoop
      ((Host.plain true).start ⟨0, 0, 0, 0⟩ ⟨1440, 200⟩)).map Loop.peers =
        .ok [(0, 1), (0, 1)] := by
    decide +kernel
  cases h : [synPoll, synPoll].foldlM (Host.plain true).doLoop
      ((Host.plain true).start ⟨0, 0, 0, 0⟩ ⟨1440, 200⟩) with
  | error e =>
    rw [h] at twice
    cases twice
  | ok l =>
    rw [h] at twice
    have distinct := (general _ l (run_foldlM_ok h)).peers
    rw [Except.ok.inj twice] at distinct
    exact absurd distinct (by decide)

end NetLabs.Ctcp
