/-
NetLabs.Ctcp.Handshake — opening a connection, `tcp_handshake` and
`tcp_new_connection` of `lab3/ctcp_sys_internal.c`.

The client sends a SYN and waits for one packet. The server sets up a
connection for every SYN and answers with a SYN-ACK. The client takes any
packet with a SYN that comes to its port for the answer: it looks neither at
where it comes from nor at what it acknowledges.

`Opening` is a client and a server on a network that loses, duplicates and
reorders packets, with packets of other hosts and with packets left over from
an earlier session. A client that was connected by a SYN-ACK mirrors a
connection of the server, each knowing the initial sequence number and the
window of the other, or it took a packet left over (`handshake_agreement`).
-/
import NetLabs.Ctcp.SentSegments

namespace NetLabs.Ctcp

open NetLabs.Lib

/-! ## Segments of the handshake -/

/-- The fields of `conn_t` that set up a connection. -/
structure ConnT extends Conn where
  /-- Current sequence number. -/
  seqno : UInt32
  /-- Sequence number of next segment to send. -/
  nextSeqno : UInt32
  /-- Current ack number. -/
  ackno : UInt32

/-- `conn_setup(conn, ip_addr, port, unix_socket)`, on memory from `calloc`.
`random` is what `rand()` returns. -/
def connSetup (ipAddr : UInt32) (port : Int) (random : UInt32) : ConnT where
  ipAddr
  port
  initSeqno := random
  theirInitSeqno := 0
  seqno := 0
  nextSeqno := random
  ackno := 0

/-- The TCP header `create_tcp_seg` writes, before its checksum. -/
def connTcphdr (config : Settings) (recvWindow : UInt16) (dst : ConnT) (flags : UInt8) :
    Tcphdr where
  thSport := UInt16.ofInt config.port
  thDport := UInt16.ofInt dst.port
  thSeq := dst.nextSeqno
  thAck := dst.ackno
  thOff := UInt8.ofNat (tcpHdrSize / 4)
  thFlags := flags
  thWin := if flags &&& thRst = 0 then recvWindow else 0
  thSum := 0
  thUrp := 0

/-- `create_tcp_seg(dst, flags, data, len)`: the segment, and what becomes of
`dst`. -/
def createTcpSeg (e : Endian) (config : Settings) (recvWindow : UInt16) (dst : ConnT)
    (flags : UInt8) (data : List UInt8) : List UInt8 × ConnT :=
  let len := UInt16.ofNat data.length
  let datagram := createDatagram e config.ipAddr dst.ipAddr (UInt16.ofNat tcpHdrSize + len)
  let datagram := if len > 0 then put datagram (ipHdrSize + tcpHdrSize) data else datagram
  let tcpHdr := connTcphdr config recvWindow dst flags
  let datagram := put datagram ipHdrSize (tcpHdr.bytes e)
  let thSum := cksumTcp e datagram len
  (put datagram ipHdrSize ({ tcpHdr with thSum }.bytes e),
    { dst with seqno := dst.nextSeqno, nextSeqno := dst.nextSeqno + len.toUInt32 })

/-- A segment without data is its two headers. -/
theorem createTcpSeg_nil (e : Endian) (config : Settings) (recvWindow : UInt16) (dst : ConnT)
    (flags : UInt8) :
    ∃ thSum, createTcpSeg e config recvWindow dst flags [] =
      ((datagramIphdr e config.ipAddr dst.ipAddr (UInt16.ofNat tcpHdrSize)).bytes e ++
          { connTcphdr config recvWindow dst flags with thSum }.bytes e,
        { dst with seqno := dst.nextSeqno }) := by
  have empty : createDatagram e config.ipAddr dst.ipAddr (UInt16.ofNat tcpHdrSize) =
      (datagramIphdr e config.ipAddr dst.ipAddr (UInt16.ofNat tcpHdrSize)).bytes e ++
        List.replicate tcpHdrSize 0 := rfl
  have written : ∀ (ip : Iphdr) (old new : List UInt8), old.length = new.length →
      put (ip.bytes e ++ old) ipHdrSize new = ip.bytes e ++ new :=
    fun ip old new same => put_end (by simp) same.symm
  refine ⟨cksumTcp e ((datagramIphdr e config.ipAddr dst.ipAddr (UInt16.ofNat tcpHdrSize)).bytes e
    ++ (connTcphdr config recvWindow dst flags).bytes e) 0, ?_⟩
  have none : UInt16.ofNat ([] : List UInt8).length = 0 := rfl
  simp only [createTcpSeg, none]
  rw [if_neg (by decide), UInt16.add_zero, empty, written _ _ _ (by simp), written _ _ _ (by simp)]
  exact Prod.ext rfl (congrArg (fun n => { dst with seqno := dst.nextSeqno, nextSeqno := n })
    (UInt32.add_zero _))

/-- A segment of the handshake has the fields it was given. -/
theorem packetOf_createTcpSeg (e : Endian) (config : Settings) (recvWindow : UInt16) (dst : ConnT)
    (flags : UInt8) :
    packetOf (createTcpSeg e config recvWindow dst flags []).1 =
      { saddr := config.ipAddr
        thSport := UInt16.ofInt config.port
        thDport := UInt16.ofInt dst.port
        thSeq := dst.nextSeqno
        thAck := dst.ackno
        thFlags := flags
        window := if flags &&& thRst = 0 then recvWindow else 0 } := by
  obtain ⟨thSum, eq⟩ := createTcpSeg_nil e config recvWindow dst flags
  rw [eq, ← List.append_nil (_ ++ _), packetOf_parts]
  rfl

theorem createTcpSeg_snd (e : Endian) (config : Settings) (recvWindow : UInt16) (dst : ConnT)
    (flags : UInt8) :
    (createTcpSeg e config recvWindow dst flags []).2 = { dst with seqno := dst.nextSeqno } := by
  obtain ⟨thSum, eq⟩ := createTcpSeg_nil e config recvWindow dst flags
  rw [eq]

/-! ## The client -/

/-- The client in `start_client`. -/
inductive Client where
  | closed (sconn : ConnT)
  /-- the SYN is sent, and `recv_filter` waits -/
  | waiting (sconn : ConnT)
  /-- with the window of the server, and whether a SYN-ACK connected it -/
  | connected (sconn : ConnT) (sendWindow : UInt16) (synAck : Bool)
  | failed

/-- The numbers of the connection after a SYN-ACK. -/
def ConnT.synAcked (c : ConnT) (synack : Packet) : ConnT :=
  { c with
    nextSeqno := c.nextSeqno + 1
    theirInitSeqno := synack.thSeq
    ackno := synack.thSeq + 1 }

namespace Host

variable (h : Host)

/-- `config->sconn` as `recv_filter` sees it, which does not look at the
state. -/
def sconn (c : ConnT) : Connection :=
  ⟨0, c.toConn, ctcpInit (h.env 0) (h.block 0) ⟨0, h.rtTimeout⟩, false, false⟩

/-- `tcp_handshake()` after the SYN was sent: where it leaves the client, and
the ACK it sends. `received` is what `recv` stores, if it does not fail. -/
def tcpHandshake (recvWindow : UInt16) (c : ConnT) (received : Option (List UInt8)) :
    Client × List (List UInt8) :=
  match received with
  | none => (.failed, [])
  | some buf =>
      match h.recvFilter [h.sconn c] buf with
      | .error _ => (.failed, [])
      | .ok (r, _) =>
          if r = 0 then (.failed, [])
          else
            let synack := packetOf buf
            -- "If an ACK is received instead of a SYN-ACK, continue previous connection."
            if synack.thFlags &&& thSyn = 0 then
              let initSeqno := synack.thAck - 1
              (.connected
                { c with
                  initSeqno
                  theirInitSeqno := synack.thSeq - 1
                  nextSeqno := initSeqno + 1
                  ackno := synack.thSeq } synack.window false, [])
            else
              let (ack, c) := createTcpSeg (h.env 0).endian h.config recvWindow
                (c.synAcked synack) thAck.toUInt8 []
              (.connected c synack.window true, [ack])

/-! ## The server -/

/-- The connection object `tcp_new_connection` sets up for a SYN. -/
def newConn (l : Loop) (syn : Packet) : ConnT :=
  { connSetup syn.saddr syn.thSport.toNat (h.isn l.numConnected) with
    theirInitSeqno := syn.thSeq
    ackno := syn.thSeq + 1 }

/-- The SYN for which `do_loop` sets up a connection, if it receives one. -/
def synAt (l : Loop) (p : Polled) : Option Packet := do
  let buf ← p.packet
  match h.recvFilter l.connections buf with
  | .ok (len, none) =>
      if fullHdrSize ≤ len ∧ (packetOf buf).thFlags &&& thSyn ≠ 0 ∧ h.server = true ∧
          l.numConnected < maxNumClients then
        some (packetOf buf)
      else none
  | _ => none

/-- The connection `tcp_new_connection` puts on the list is the one set up. -/
theorem receive_synAt {l : Loop} {p : Polled} {packet : Packet}
    (found : h.synAt l p = some packet) :
    h.receive p l = .ok
      { l with
        connections :=
          { id := l.numConnected
            conn := (h.newConn l packet).toConn
            state := ctcpInit (h.env l.numConnected) (h.block l.numConnected)
              ⟨packet.window, h.rtTimeout⟩
            readEof := false
            deleteMe := false } :: l.connections
        numConnected := l.numConnected + 1
        newConnection := packet.thSport } := by
  obtain ⟨buf, received, found⟩ := Option.bind_eq_some_iff.mp found
  rw [receive, received]
  dsimp only
  split at found
  · rename_i len filtered
    split at found
    · rename_i accepts
      obtain rfl := Option.some.inj found
      obtain ⟨whole, isSyn, server, room⟩ := accepts
      rw [filtered]
      show (if len < fullHdrSize then _ else _) = _
      rw [if_neg (Nat.not_lt.mpr whole)]
      rw [if_pos isSyn, tcpNewConnection, if_pos ⟨server, room⟩]
      rfl
    · cases found
  · cases found

/-- What `recv_filter` lets through as a SYN. -/
theorem synAt_some {l : Loop} {p : Polled} {packet : Packet} (found : h.synAt l p = some packet) :
    ∃ buf, p.packet = some buf ∧ packet = packetOf buf ∧ (packetOf buf).thFlags &&& thSyn ≠ 0 := by
  obtain ⟨buf, received, found⟩ := Option.bind_eq_some_iff.mp found
  split at found
  · split at found
    · rename_i accepts
      exact ⟨buf, received, (Option.some.inj found).symm, accepts.2.1⟩
    · cases found
  · cases found

end Host

/-- A connection the server has set up, with the window of the client. -/
structure Opened where
  conn : ConnT
  sendWindow : UInt16

/-- What an iteration opens, and the SYN-ACK it sends. -/
def Host.accepts (h : Host) (recvWindow : UInt16) (l : Loop) (p : Polled) :
    Option (Opened × List UInt8) := do
  let l ← (h.inputs p l).toOption
  let packet ← h.synAt l p
  let synAck := createTcpSeg (h.env l.numConnected).endian h.config recvWindow
    (h.newConn l packet) (thSyn ||| thAck.toUInt8) []
  return (⟨synAck.2, packet.window⟩, synAck.1)

/-! ## Opening a connection -/

/-- A client, a server, and their windows. -/
structure Hosts where
  client : Host
  server : Host
  clientWindow : UInt16
  serverWindow : UInt16

/-- A client that connects to a server, and the packets sent so far. -/
structure Opening where
  client : Client
  loop : Loop
  toServer : List (List UInt8)
  toClient : List (List UInt8)
  opened : List Opened

inductive OpeningOp where
  | sendSyn
  /-- what `recv` stores for the client, or that it fails -/
  | receive (received : Option (List UInt8))
  /-- an iteration of the server -/
  | iterate (p : Polled)

namespace Hosts

variable (k : Hosts)

/-- The address is the client's. -/
def AtClient (ipAddr : UInt32) (port : UInt16) : Prop :=
  port = UInt16.ofInt k.client.config.port ∧
    (k.server.config.unixSocket = true ∨ ipAddr = k.client.config.ipAddr)

/-- What is sent to the connection comes to the host of the client. -/
def Reaches (conn : ConnT) : Prop :=
  if k.server.config.unixSocket then conn.port = k.client.config.port
  else conn.ipAddr = k.client.config.ipAddr

instance (conn : ConnT) : Decidable (k.Reaches conn) := inferInstanceAs (Decidable (ite _ _ _))

/-- The packet is no SYN of the client. -/
def Foreign (buf : List UInt8) : Prop :=
  (packetOf buf).thFlags &&& thSyn ≠ 0 → ¬ k.AtClient (packetOf buf).saddr (packetOf buf).thSport

/-- The first sequence number of the client. -/
def clientIsn : UInt32 := k.client.isn 0

end Hosts

/-- A client that has not connected, with packets left over on the way to it. -/
def Opening.start (k : Hosts) (ipAddr : UInt32) (port : Int) (loop : Loop)
    (leftover : List (List UInt8)) : Opening :=
  ⟨.closed (connSetup ipAddr port k.clientIsn), loop, [], leftover, []⟩

/-- The state after a step. -/
def Opening.apply (k : Hosts) (x : Opening) : OpeningOp → Option Opening
  | .sendSyn =>
      match x.client with
      | .closed c =>
          let syn := createTcpSeg (k.client.env 0).endian k.client.config k.clientWindow c thSyn []
          some { x with client := .waiting syn.2, toServer := x.toServer ++ [syn.1] }
      | _ => none
  | .receive received =>
      match x.client with
      | .waiting c =>
          let end_ := k.client.tcpHandshake k.clientWindow c received
          some { x with client := end_.1, toServer := x.toServer ++ end_.2 }
      | _ => none
  | .iterate p =>
      (k.server.doLoop x.loop p).toOption.map fun loop =>
        let new := (k.server.accepts k.serverWindow x.loop p).toList
        { x with
          loop
          toClient := x.toClient ++ (new.filter fun o => k.Reaches o.1.conn).map Prod.snd
          opened := x.opened ++ new.map Prod.fst }

/-- Whatever was sent may arrive, at any time and again. Besides it, the client
may receive what is no SYN, and the server what is no SYN of the client. -/
def Opening.Enabled (k : Hosts) (x : Opening) : OpeningOp → Prop
  | .sendSyn => True
  | .receive received =>
      ∀ buf ∈ received, buf ∈ x.toClient ∨ (packetOf buf).thFlags &&& thSyn = 0
  | .iterate p => ∀ buf ∈ p.packet, buf ∈ x.toServer ∨ k.Foreign buf

def OpeningStep (k : Hosts) (x : Opening) (op : OpeningOp) (x' : Opening) : Prop :=
  x.Enabled k op ∧ x.apply k op = some x'

/-! ## Agreement -/

/-- The connection object of the client and one of the server know each
other. -/
structure Mirrors (k : Hosts) (c : ConnT) (sendWindow : UInt16) (o : Opened) : Prop where
  address : k.AtClient o.conn.ipAddr (UInt16.ofInt o.conn.port)
  client : o.conn.theirInitSeqno = c.initSeqno
  server : c.theirInitSeqno = o.conn.initSeqno
  /-- Each expects the number behind the SYN of the other. -/
  next : c.nextSeqno = o.conn.ackno ∧ c.ackno = o.conn.initSeqno + 1
  windows : sendWindow = k.serverWindow ∧ o.sendWindow = k.clientWindow

/-- A packet left over that the client takes for a SYN-ACK. -/
def Misleads (k : Hosts) (c : ConnT) (buf : List UInt8) : Prop :=
  (packetOf buf).thFlags &&& thSyn ≠ 0 ∧
    (packetOf buf).thDport = UInt16.ofInt k.client.config.port ∧
    c.theirInitSeqno = (packetOf buf).thSeq

/-- What the client knows, wherever it is. -/
def Client.Knows (k : Hosts) (leftover : List (List UInt8)) (opened : List Opened) :
    Client → Prop
  | .closed c | .waiting c => c.initSeqno = k.clientIsn ∧ c.nextSeqno = k.clientIsn
  | .connected c sendWindow true =>
      (∃ buf ∈ leftover, Misleads k c buf) ∨ ∃ o ∈ opened, Mirrors k c sendWindow o
  | .connected _ _ false | .failed => True

/-- What holds between the steps. -/
structure OpeningInv (k : Hosts) (leftover : List (List UInt8)) (x : Opening) : Prop where
  syns : ∀ buf ∈ x.toServer, (packetOf buf).thFlags &&& thSyn ≠ 0 →
    (packetOf buf).thSeq = k.clientIsn ∧ (packetOf buf).window = k.clientWindow
  /-- What the server opened for the client has its numbers. -/
  opened : ∀ o ∈ x.opened, k.AtClient o.conn.ipAddr (UInt16.ofInt o.conn.port) →
    o.conn.theirInitSeqno = k.clientIsn ∧ o.conn.ackno = k.clientIsn + 1 ∧
      o.sendWindow = k.clientWindow
  synAcks : ∀ buf ∈ x.toClient, buf ∈ leftover ∨ ∃ o ∈ x.opened, k.Reaches o.conn ∧
    (packetOf buf).thDport = UInt16.ofInt o.conn.port ∧
    (packetOf buf).thSeq = o.conn.initSeqno ∧ (packetOf buf).window = k.serverWindow
  client : x.client.Knows k leftover x.opened

variable {k : Hosts} {leftover : List (List UInt8)} {x x' : Opening}

theorem openingInv_start (ipAddr : UInt32) (port : Int) (loop : Loop) :
    OpeningInv k leftover (.start k ipAddr port loop leftover) :=
  ⟨List.forall_mem_nil _, List.forall_mem_nil _, fun _ mem => .inl mem, rfl, rfl⟩

/-! ### Steps of the client -/

/-- Nothing comes through `recv_filter` that is for another port. -/
theorem recvFilter_dport {h : Host} {cs : List Connection} {buf : List UInt8} {r : Nat}
    {conn : Option Connection} (filtered : h.recvFilter cs buf = .ok (r, conn)) (some : r ≠ 0) :
    (packetOf buf).thDport = UInt16.ofInt h.config.port := by
  by_contra other
  rw [Host.recvFilter, if_pos other] at filtered
  split at filtered
  · exact some (Prod.mk.inj (Except.ok.inj filtered)).1.symm
  · exact some (Prod.mk.inj (Except.ok.inj filtered)).1.symm

/-- The client connects by a packet with a SYN to its port, and answers with an
ACK; or it does without a SYN-ACK, and sends nothing. -/
theorem tcpHandshake_cases (h : Host) (recvWindow : UInt16) (c : ConnT)
    (received : Option (List UInt8)) :
    ((h.tcpHandshake recvWindow c received).2 = [] ∧
      ∀ c' w, (h.tcpHandshake recvWindow c received).1 ≠ .connected c' w true ∧
        (h.tcpHandshake recvWindow c received).1 ≠ .waiting c' ∧
        (h.tcpHandshake recvWindow c received).1 ≠ .closed c') ∨
    ∃ buf ack, received = some buf ∧ (packetOf buf).thFlags &&& thSyn ≠ 0 ∧
      (packetOf buf).thDport = UInt16.ofInt h.config.port ∧
      (packetOf ack).thFlags &&& thSyn = 0 ∧
      h.tcpHandshake recvWindow c received =
        (.connected
          { c.synAcked (packetOf buf) with seqno := c.nextSeqno + 1 } (packetOf buf).window true,
          [ack]) := by
  cases received with
  | none => exact .inl ⟨rfl, fun _ _ => ⟨nofun, nofun, nofun⟩⟩
  | some buf =>
    unfold Host.tcpHandshake
    dsimp only
    split
    · exact .inl ⟨rfl, fun _ _ => ⟨nofun, nofun, nofun⟩⟩
    · rename_i r conn filtered
      split
      · exact .inl ⟨rfl, fun _ _ => ⟨nofun, nofun, nofun⟩⟩
      · rename_i got
        split
        · exact .inl ⟨rfl, fun _ _ => ⟨nofun, nofun, nofun⟩⟩
        · rename_i syn
          have acks := createTcpSeg_snd (h.env 0).endian h.config recvWindow
            (c.synAcked (packetOf buf)) thAck.toUInt8
          refine .inr ⟨buf, _, rfl, syn, recvFilter_dport filtered got, ?_,
            Prod.ext (congrArg (Client.connected · _ true) acks) rfl⟩
          rw [packetOf_createTcpSeg]
          exact (by decide : thAck.toUInt8 &&& thSyn = 0)

theorem openingInv_sendSyn {c : ConnT} (inv : OpeningInv k leftover x)
    (closed : x.client = .closed c) (applied : x.apply k .sendSyn = some x') :
    OpeningInv k leftover x' := by
  have knows := inv.client
  rw [closed] at knows
  rw [Opening.apply, closed] at applied
  obtain rfl := Option.some.inj applied
  refine ⟨fun buf mem syn => ?_, inv.opened, inv.synAcks, ?_⟩
  · rcases List.mem_append.mp mem with old | new
    · exact inv.syns buf old syn
    · rw [List.mem_singleton.mp new, packetOf_createTcpSeg]
      exact ⟨knows.2, rfl⟩
  · rw [createTcpSeg_snd]
    exact knows

theorem openingInv_receive {c : ConnT} {received : Option (List UInt8)}
    (inv : OpeningInv k leftover x) (waiting : x.client = .waiting c)
    (enabled : x.Enabled k (.receive received))
    (applied : x.apply k (.receive received) = some x') : OpeningInv k leftover x' := by
  have knows := inv.client
  rw [waiting] at knows
  rw [Opening.apply, waiting] at applied
  obtain rfl := Option.some.inj applied
  rcases tcpHandshake_cases k.client k.clientWindow c received with
    ⟨silent, elsewhere⟩ | ⟨buf, ack, rfl, syn, dport, plain, eq⟩
  · refine ⟨?_, inv.opened, inv.synAcks, ?_⟩
    · dsimp only
      rw [silent, List.append_nil]
      exact inv.syns
    · dsimp only
      generalize (k.client.tcpHandshake k.clientWindow c received).1 = client at elsewhere ⊢
      cases client with
      | closed c' => exact absurd rfl (elsewhere c' 0).2.2
      | waiting c' => exact absurd rfl (elsewhere c' 0).2.1
      | connected c' w synAck =>
        cases synAck with
        | true => exact absurd rfl (elsewhere c' w).1
        | false => trivial
      | failed => trivial
  · rw [eq]
    refine ⟨fun buf' mem isSyn => ?_, inv.opened, inv.synAcks, ?_⟩
    · rcases List.mem_append.mp mem with old | new
      · exact inv.syns buf' old isSyn
      · rw [List.mem_singleton.mp new] at isSyn
        exact absurd plain isSyn
    · -- the packet was left over, or it is the answer to a SYN of this client
      have came : buf ∈ x.toClient := (enabled buf rfl).resolve_right syn
      rcases inv.synAcks buf came with left | ⟨o, mem, reaches, port, seq, window⟩
      · exact .inl ⟨buf, left, syn, dport, rfl⟩
      · have address : k.AtClient o.conn.ipAddr (UInt16.ofInt o.conn.port) := by
          refine ⟨port.symm.trans dport, ?_⟩
          unfold Hosts.Reaches at reaches
          split at reaches
          · exact .inl ‹_›
          · exact .inr reaches
        obtain ⟨theirs, ackno, clientWindow⟩ := inv.opened o mem address
        refine .inr ⟨o, mem, address, theirs.trans knows.1.symm, seq, ⟨?_, ?_⟩, window,
          clientWindow⟩
        · rw [ackno, ← knows.2]
          rfl
        · rw [← seq]
          rfl

/-! ### Steps of the server -/

/-- What the server accepts, it accepts for a SYN it got. -/
theorem accepts_cases {h : Host} {recvWindow : UInt16} {l : Loop} {p : Polled} {o : Opened}
    {synAck : List UInt8} (accepted : h.accepts recvWindow l p = some (o, synAck)) :
    ∃ buf, p.packet = some buf ∧ (packetOf buf).thFlags &&& thSyn ≠ 0 ∧
      o.conn.ipAddr = (packetOf buf).saddr ∧ o.conn.port = (packetOf buf).thSport.toNat ∧
      o.conn.theirInitSeqno = (packetOf buf).thSeq ∧ o.conn.ackno = (packetOf buf).thSeq + 1 ∧
      o.sendWindow = (packetOf buf).window ∧
      (packetOf synAck).thDport = UInt16.ofInt o.conn.port ∧
      (packetOf synAck).thSeq = o.conn.initSeqno ∧ (packetOf synAck).window = recvWindow := by
  obtain ⟨l', -, accepted⟩ := Option.bind_eq_some_iff.mp accepted
  obtain ⟨packet, found, accepted⟩ := Option.bind_eq_some_iff.mp accepted
  obtain ⟨buf, received, rfl, syn⟩ := h.synAt_some found
  obtain ⟨rfl, rfl⟩ := Prod.mk.inj (Option.some.inj accepted)
  refine ⟨buf, received, syn, ?_⟩
  rw [packetOf_createTcpSeg, createTcpSeg_snd]
  exact ⟨rfl, rfl, rfl, rfl, rfl, rfl, rfl, rfl⟩

theorem openingInv_iterate {p : Polled} (inv : OpeningInv k leftover x)
    (enabled : x.Enabled k (.iterate p)) (applied : x.apply k (.iterate p) = some x') :
    OpeningInv k leftover x' := by
  obtain ⟨loop, -, rfl⟩ := Option.map_eq_some_iff.mp applied
  have grown : ∀ new : List Opened, x.opened ⊆ x.opened ++ new :=
    fun new => List.subset_append_left _ _
  refine ⟨inv.syns, fun o mem address => ?_, fun buf mem => ?_, ?_⟩
  · rcases List.mem_append.mp mem with old | new
    · exact inv.opened o old address
    · obtain ⟨⟨o, synAck⟩, accepted, rfl⟩ := List.mem_map.mp new
      obtain ⟨buf, received, syn, saddr, sport, seq, ackno, window, -⟩ :=
        accepts_cases (Option.mem_toList.mp accepted)
      have port : UInt16.ofInt o.conn.port = (packetOf buf).thSport := by
        rw [sport, Lib.uint16_ofInt_ofNat]
        exact UInt16.ofNat_toNat
      have mine : buf ∈ x.toServer := by
        refine (enabled buf received).resolve_right fun foreign => foreign syn ?_
        rwa [← saddr, ← port]
      obtain ⟨isn, clientWindow⟩ := inv.syns buf mine syn
      exact ⟨seq.trans isn, ackno.trans (congrArg (· + 1) isn), window.trans clientWindow⟩
  · rcases List.mem_append.mp mem with old | new
    · rcases inv.synAcks buf old with left | ⟨o, mem, answers⟩
      · exact .inl left
      · exact .inr ⟨o, grown _ mem, answers⟩
    · obtain ⟨⟨o, synAck⟩, sent, rfl⟩ := List.mem_map.mp new
      obtain ⟨accepted, reaches⟩ := List.mem_filter.mp sent
      obtain ⟨_, -, -, -, -, -, -, -, answers⟩ := accepts_cases (Option.mem_toList.mp accepted)
      exact .inr ⟨o, List.mem_append_right _ (List.mem_map_of_mem accepted),
        of_decide_eq_true reaches, answers⟩
  · have knows := inv.client
    dsimp only
    cases at_ : x.client with
    | closed c | waiting c =>
      rw [at_] at knows
      exact knows
    | connected c w synAck =>
      rw [at_] at knows
      cases synAck with
      | true => exact knows.imp_right fun ⟨o, mem, mirrors⟩ => ⟨o, grown _ mem, mirrors⟩
      | false => trivial
    | failed => trivial

/-! ### Runs -/

theorem openingInv_step {op : OpeningOp} (inv : OpeningInv k leftover x)
    (step : OpeningStep k x op x') : OpeningInv k leftover x' := by
  obtain ⟨enabled, applied⟩ := step
  cases op with
  | sendSyn =>
    cases at_ : x.client with
    | closed c => exact openingInv_sendSyn inv at_ applied
    | waiting | connected | failed =>
      rw [Opening.apply, at_] at applied
      cases applied
  | receive received =>
    cases at_ : x.client with
    | waiting c => exact openingInv_receive inv at_ enabled applied
    | closed | connected | failed =>
      rw [Opening.apply, at_] at applied
      cases applied
  | iterate p => exact openingInv_iterate inv enabled applied

/-- **Agreement of the handshake.** In every run, however packets are lost,
repeated and reordered, a client that a SYN-ACK connected mirrors a connection
its server has set up, or the SYN-ACK was left over from an earlier session. -/
theorem handshake_agreement {ipAddr : UInt32} {port : Int} {loop : Loop} {ops : List OpeningOp}
    (run : Run (OpeningStep k) (.start k ipAddr port loop leftover) ops x) {c : ConnT}
    {sendWindow : UInt16} (connected : x.client = .connected c sendWindow true) :
    (∃ buf ∈ leftover, Misleads k c buf) ∨ ∃ o ∈ x.opened, Mirrors k c sendWindow o := by
  have inv : OpeningInv k leftover x :=
    run.invariant (OpeningInv k leftover) (openingInv_start ipAddr port loop) openingInv_step
  have knows := inv.client
  rwa [connected] at knows

/-- The allowed operations, for a run on given packets. -/
def Opening.allows (x : Opening) : OpeningOp → Bool
  | .sendSyn => true
  | .receive received => received.all fun buf => x.toClient.contains buf
  | .iterate p => p.packet.all fun buf => x.toServer.contains buf

theorem Opening.enabled_of_allows {op : OpeningOp} (allows : x.allows op = true) :
    x.Enabled k op := by
  cases op with
  | sendSyn => trivial
  | receive received =>
    rintro buf rfl
    exact .inl (List.contains_iff_mem.mp allows)
  | iterate p =>
    intro buf received
    rw [Opening.allows, Option.mem_def.mp received] at allows
    exact .inl (List.contains_iff_mem.mp allows)

/-- A client at port 1 and a server, by Unix sockets. -/
def unixHosts : Hosts where
  client := { Host.plain false with
    config := { (Host.plain false).config with port := 1 }
    isn := fun _ => 7 }
  server := { Host.plain true with isn := fun _ => 9 }
  clientWindow := 1440
  serverWindow := 2880

/-- The SYN of this client; the answer is `unixSynAck`. -/
def unixSyn : List UInt8 :=
  (createTcpSeg .little unixHosts.client.config 1440 (connSetup 0 80 7) thSyn []).1

def unixSynAck : List UInt8 :=
  (createTcpSeg .little unixHosts.server.config 2880
    { connSetup 0 1 9 with theirInitSeqno := 7, ackno := 8 } (thSyn ||| thAck.toUInt8) []).1

theorem handshake_agreement_unix :
    ∃ (x : Opening) (c : ConnT), x.client = .connected c 2880 true ∧
      ((∃ buf ∈ [], Misleads unixHosts c buf) ∨ ∃ o ∈ x.opened, Mirrors unixHosts c 2880 o) := by
  let start : Opening :=
    .start unixHosts 0 80 (unixHosts.server.start ⟨0, 0, 0, 0⟩ ⟨1440, 200⟩) []
  let ops : List OpeningOp :=
    [.sendSyn, .iterate { Polled.idle with packet := some unixSyn }, .receive (some unixSynAck)]
  let step : Opening → OpeningOp → Option Opening :=
    fun x op => if x.allows op then x.apply unixHosts op else none
  have connects : ((ops.foldlM step start).bind fun x =>
      match x.client with
      | .connected _ sendWindow synAck => some (sendWindow, synAck)
      | _ => none) = some (2880, true) := by
    decide +kernel
  obtain ⟨x, ran, connected⟩ := Option.bind_eq_some_iff.mp connects
  have run : Run (OpeningStep unixHosts) start ops x :=
    run_foldlM Opening.allows
      (fun _ _ _ allows applied => ⟨Opening.enabled_of_allows allows, applied⟩) ran
  split at connected
  · rename_i c sendWindow synAck at_
    obtain ⟨rfl, rfl⟩ := Prod.mk.inj (Option.some.inj connected)
    exact ⟨x, c, at_, handshake_agreement run at_⟩
  · cases connected

end NetLabs.Ctcp
