/-
NetLabs.Ctcp.HandshakeAck — the handshake acknowledgment a server does not
pass on.

A server does not tell its application about the third segment of a
handshake. `do_loop` knows it by the port of the client, which `new_connection`
holds until then, and by its relative numbers 1 and 1. The first data segment
of a client has these numbers as well. If it is the first of the two to
arrive, because the acknowledgment was lost or overtaken, it is freed in its
place. `new_connection` holds one port, so a client is forgotten as soon as
the next one connects, and it is 0 while nobody is awaited, so a client at
port 0 is awaited all the time.

`Heard` is the history of what arrives. `Awaits` reads off it which port
`new_connection` holds (`Registers`), and `suppressed_bare_iff` says in these
terms when nothing but bare acknowledgments is freed.
-/
import NetLabs.Lib.Ledger
import NetLabs.Ctcp.MainLoop

namespace NetLabs.Ctcp

open NetLabs.Lib

/-! ## The history -/

/-- What arrives and concerns `new_connection`. -/
inductive Heard where
  /-- the SYN of a client the server connects with -/
  | client (port : UInt16)
  /-- a segment of a connection with an ACK and the relative numbers 1 and 1 -/
  | first (port : UInt16) (segment : CtcpSegment)
  deriving DecidableEq

/-- No payload and no FIN. -/
def CtcpSegment.Bare (seg : CtcpSegment) : Prop := seg.data = [] ∧ ¬ seg.hasFlag thFin

/-- Nothing that ends the wait for a client at the port. -/
def Heard.Elsewhere (port : UInt16) : Heard → Prop
  | .client _ => False
  | .first other _ => other ≠ port

/-- The client that connected last is at this port, and nothing with the
numbers of a first segment has come from there since. -/
def Awaits (heard : List Heard) (port : UInt16) : Prop :=
  ∃ earlier since, heard = earlier ++ .client port :: since ∧ ∀ e ∈ since, e.Elsewhere port

/-- Port 0 also stands for no port. -/
def AwaitsAt (heard : List Heard) (port : UInt16) : Prop :=
  if port = 0 then ∀ other, other ≠ 0 → ¬ Awaits heard other else Awaits heard port

/-- The first segment from an awaited port is a bare acknowledgment. -/
def AckFirst (before : List Heard) : Heard → Prop
  | .client _ => True
  | .first port seg => AwaitsAt before port → seg.Bare

namespace Host

variable (h : Host)

/-- The numbers of a handshake acknowledgment. -/
def IsFirst (c : Connection) (buf : List UInt8) : Prop :=
  (h.segment c buf).flags &&& thAck ≠ 0 ∧
    (h.segment c buf).seqno = 1 ∧ (h.segment c buf).ackno = 1

instance (c : Connection) (buf : List UInt8) : Decidable (h.IsFirst c buf) :=
  inferInstanceAs (Decidable (_ ∧ _))

/-- What `do_loop` receives. -/
def heardAt (l : Loop) (p : Polled) : Option Heard := do
  let buf ← p.packet
  match h.recvFilter l.connections buf with
  | .error _ => none
  | .ok (_, some c) =>
      if h.IsFirst c buf then some (.first (packetOf buf).thSport (h.segment c buf)) else none
  | .ok (len, none) =>
      if fullHdrSize ≤ len ∧ (packetOf buf).thFlags &&& thSyn ≠ 0 ∧ h.server = true ∧
          l.numConnected < maxNumClients then
        some (.client (packetOf buf).thSport)
      else none

/-- The segment it frees instead of passing it on. -/
def freedAt (l : Loop) (p : Polled) : Option CtcpSegment := do
  let buf ← p.packet
  match h.recvFilter l.connections buf with
  | .ok (_, some c) => if h.isHandshakeAck l c buf then some (h.segment c buf) else none
  | _ => none

/-- What an iteration receives. -/
def hears (l : Loop) (p : Polled) : Option Heard := do
  h.heardAt (← (h.inputs p l).toOption) p

/-- The segment an iteration frees instead of passing it on. -/
def frees (l : Loop) (p : Polled) : Option CtcpSegment := do
  h.freedAt (← (h.inputs p l).toOption) p

end Host

/-- The loop with its history, and with what it has freed instead of passing
it on. -/
structure Watched where
  loop : Loop
  heard : List Heard
  freed : List CtcpSegment

/-- An iteration with its history. -/
def Host.watch (h : Host) (w : Watched) (p : Polled) : Except Halt Watched := do
  let loop ← h.doLoop w.loop p
  return ⟨loop, w.heard ++ (h.hears w.loop p).toList, w.freed ++ (h.frees w.loop p).toList⟩

def Host.WatchStep (h : Host) (w : Watched) (p : Polled) (w' : Watched) : Prop :=
  h.watch w p = .ok w'

/-! ## Who is awaited -/

theorem awaits_nil (port : UInt16) : ¬ Awaits [] port := by
  rintro ⟨earlier, since, split, -⟩
  simp at split

theorem awaits_snoc {heard : List Heard} {e : Heard} {port : UInt16} :
    Awaits (heard ++ [e]) port ↔
      e = .client port ∨ Awaits heard port ∧ e.Elsewhere port := by
  constructor
  · rintro ⟨earlier, since, split, others⟩
    rcases List.eq_nil_or_concat' since with rfl | ⟨since, x, rfl⟩
    · obtain ⟨-, last⟩ := List.append_inj' split rfl
      exact .inl (List.singleton_inj.mp last)
    · rw [← List.cons_append, ← List.append_assoc] at split
      obtain ⟨rfl, last⟩ := List.append_inj' split rfl
      obtain rfl := List.singleton_inj.mp last
      rw [List.forall_mem_append, List.forall_mem_singleton] at others
      exact .inr ⟨⟨earlier, since, rfl, others.1⟩, others.2⟩
  · rintro (rfl | ⟨⟨earlier, since, rfl, others⟩, elsewhere⟩)
    · exact ⟨heard, [], rfl, List.forall_mem_nil _⟩
    · refine ⟨earlier, since ++ [e], by simp, ?_⟩
      rw [List.forall_mem_append, List.forall_mem_singleton]
      exact ⟨others, elsewhere⟩

/-- What becomes of `new_connection`. -/
def Heard.register (reg : UInt16) : Heard → UInt16
  | .client port => port
  | .first port _ => if port = reg then 0 else reg

/-- What is freed while `new_connection` is `reg`. -/
def Heard.freed (reg : UInt16) : Heard → Option CtcpSegment
  | .client _ => none
  | .first port seg => if port = reg then some seg else none

/-- `new_connection` is the awaited port, or 0. -/
def Registers (heard : List Heard) (reg : UInt16) : Prop :=
  ∀ port, port ≠ 0 → (reg = port ↔ Awaits heard port)

theorem registers_nil : Registers [] 0 := by
  intro port some
  exact iff_of_false (Ne.symm some) (awaits_nil port)

theorem Registers.snoc {heard : List Heard} {reg : UInt16} (r : Registers heard reg) (e : Heard) :
    Registers (heard ++ [e]) (e.register reg) := by
  intro port some
  rw [awaits_snoc, ← r port some]
  cases e with
  | client other => simp [Heard.register, Heard.Elsewhere]
  | first other seg =>
    rw [Heard.register, Heard.Elsewhere]
    split
    · rename_i same
      simp only [reduceCtorEq, false_or]
      refine iff_of_false (Ne.symm some) ?_
      rintro ⟨rfl, apart⟩
      exact apart same
    · rename_i apart
      simp only [reduceCtorEq, false_or]
      refine ⟨fun eq => ⟨eq, eq ▸ apart⟩, And.left⟩

/-- A segment is freed exactly if its port is awaited. -/
theorem Registers.awaitsAt_iff {heard : List Heard} {reg : UInt16} (r : Registers heard reg)
    (port : UInt16) : AwaitsAt heard port ↔ port = reg := by
  rw [AwaitsAt]
  split
  · rename_i zero
    constructor
    · intro none
      by_contra apart
      have nonzero : reg ≠ 0 := fun h => apart (zero.trans h.symm)
      exact none reg nonzero ((r reg nonzero).mp rfl)
    · rintro rfl other some awaited
      exact some ((r other some).mpr awaited ▸ zero)
  · rename_i some
    rw [← r port some]
    exact eq_comm

/-- What is freed is bare exactly if the rule is kept. -/
theorem Registers.ackFirst_iff {heard : List Heard} {reg : UInt16} (r : Registers heard reg)
    (e : Heard) : AckFirst heard e ↔ ∀ seg ∈ e.freed reg, seg.Bare := by
  cases e with
  | client port => simp [AckFirst, Heard.freed]
  | first port seg =>
    rw [AckFirst, r.awaitsAt_iff, Heard.freed]
    split
    · rename_i same
      simp [same]
    · rename_i apart
      simp [apart]

/-! ## An iteration -/

namespace Host

variable {h : Host} {p : Polled} {l l' : Loop}

theorem isHandshakeAck_iff {c : Connection} {buf : List UInt8} :
    h.isHandshakeAck l c buf ↔ (packetOf buf).thSport = l.newConnection ∧ h.IsFirst c buf :=
  Iff.rfl

/-- A segment is freed while its port is registered. -/
theorem freedAt_eq : h.freedAt l p = (h.heardAt l p).bind (Heard.freed l.newConnection) := by
  cases packet : p.packet with
  | none => simp [freedAt, heardAt, packet]
  | some buf =>
    simp only [freedAt, heardAt, packet, Option.bind_eq_bind, Option.bind_some]
    rcases h.recvFilter l.connections buf with e | ⟨len, _ | c⟩
    · rfl
    · dsimp only
      split <;> rfl
    · dsimp only
      by_cases first : h.IsFirst c buf
      · rw [if_pos first, Option.bind_some, Heard.freed]
        exact if_congr (and_iff_left first) rfl rfl
      · rw [if_neg first, if_neg fun ack => first ack.2]
        rfl

/-- What is received decides about `new_connection`. -/
theorem receive_register (received : h.receive p l = .ok l') :
    l'.newConnection = (h.heardAt l p).elim l.newConnection (Heard.register l.newConnection) := by
  rw [receive] at received
  cases packet : p.packet with
  | none =>
    rw [packet] at received
    obtain rfl := Except.ok.inj received
    simp [heardAt, packet]
  | some buf =>
    rw [packet] at received
    obtain ⟨⟨len, conn⟩, found, received⟩ := ok_of_bind received
    simp only [heardAt, packet, Option.bind_eq_bind, Option.bind_some, found]
    dsimp only at received
    cases conn with
    | none =>
      dsimp only
      by_cases short : len < fullHdrSize
      · rw [if_pos short] at received
        obtain rfl := Except.ok.inj received
        rw [if_neg fun syn => Nat.not_le.mpr short syn.1]
        rfl
      · rw [if_neg short] at received
        obtain rfl := Except.ok.inj received
        by_cases syn : (packetOf buf).thFlags &&& thSyn ≠ 0
        · rw [if_pos syn, tcpNewConnection]
          by_cases room : h.server = true ∧ l.numConnected < maxNumClients
          · rw [if_pos room, if_pos ⟨Nat.not_lt.mp short, syn, room⟩]
            rfl
          · rw [if_neg room, if_neg fun accepted => room accepted.2.2]
            rfl
        · rw [if_neg syn, if_neg fun accepted => syn accepted.2.1]
          rfl
    | some c =>
      dsimp only at received ⊢
      rw [if_neg (recvFilter_some found).2.not_gt] at received
      by_cases ack : h.isHandshakeAck l c buf
      · rw [if_pos ack] at received
        obtain rfl := Except.ok.inj received
        obtain ⟨port, first⟩ := isHandshakeAck_iff.mp ack
        rw [if_pos first, Option.elim_some, Heard.register, if_pos port]
      · rw [if_neg ack] at received
        obtain ⟨c', -, received⟩ := ok_of_bind received
        obtain rfl := Except.ok.inj received
        by_cases first : h.IsFirst c buf
        · rw [if_pos first, Option.elim_some, Heard.register, if_neg fun port => ack ⟨port, first⟩]
        · rw [if_neg first, Option.elim_none]

theorem inputs_newConnection (input : h.inputs p l = .ok l') :
    l'.newConnection = l.newConnection := by
  obtain ⟨_, _, input⟩ := ok_of_bind input
  obtain ⟨_, _, input⟩ := ok_of_bind input
  obtain ⟨_, _, input⟩ := ok_of_bind input
  obtain rfl := Except.ok.inj input
  rfl

theorem checkTimer_newConnection (checked : h.checkTimer p l = .ok l') :
    l'.newConnection = l.newConnection := by
  rw [checkTimer] at checked
  split at checked
  · obtain ⟨_, _, checked⟩ := ok_of_bind checked
    obtain ⟨_, _, checked⟩ := ok_of_bind checked
    obtain rfl := Except.ok.inj checked
    rfl
  · obtain rfl := Except.ok.inj checked
    rfl

theorem deleteAllConnections_newConnection (l : Loop) :
    (deleteAllConnections l).newConnection = l.newConnection := by
  rw [deleteAllConnections]
  split <;> rfl

/-- The register changes over a whole iteration as it does in `receive`. -/
theorem doLoop_register (step : h.doLoop l p = .ok l') :
    l'.newConnection = (h.hears l p).elim l.newConnection (Heard.register l.newConnection) := by
  obtain ⟨l₁, input, step⟩ := ok_of_bind step
  obtain ⟨l₂, received, step⟩ := ok_of_bind step
  obtain ⟨l₃, checked, step⟩ := ok_of_bind step
  obtain rfl := Except.ok.inj step
  have same : h.hears l p = h.heardAt l₁ p := by
    rw [hears, input]
    rfl
  rw [deleteAllConnections_newConnection, checkTimer_newConnection checked,
    receive_register received, inputs_newConnection input, same]

theorem frees_eq : h.frees l p = (h.hears l p).bind (Heard.freed l.newConnection) := by
  rw [frees, hears]
  cases input : h.inputs p l with
  | error e => rfl
  | ok l₁ =>
    have same : h.freedAt l₁ p = (h.heardAt l₁ p).bind (Heard.freed l₁.newConnection) := freedAt_eq
    rw [inputs_newConnection input] at same
    exact same

end Host

/-! ## Runs -/

/-- Every run has a history. -/
theorem exists_watched {h : Host} {w : Watched} {ps : List Polled} {l : Loop}
    (run : Run h.Step w.loop ps l) : ∃ w', Run h.WatchStep w ps w' ∧ w'.loop = l := by
  induction run with
  | nil => exact ⟨w, .nil, rfl⟩
  | @snoc ps l l' p run step ih =>
    obtain ⟨w', watched, rfl⟩ := ih
    refine ⟨⟨l', w'.heard ++ (h.hears w'.loop p).toList, w'.freed ++ (h.frees w'.loop p).toList⟩,
      watched.snoc ?_, rfl⟩
    change h.doLoop w'.loop p = .ok l' at step
    rw [Host.WatchStep, Host.watch, step]
    rfl

/-- `new_connection` agrees with the history, and what has been freed is bare
exactly if the history keeps the rule. -/
structure WatchInv (w : Watched) : Prop where
  registers : Registers w.heard w.loop.newConnection
  bare : (∀ seg ∈ w.freed, seg.Bare) ↔ Justified AckFirst w.heard

/-- What the next iteration frees is bare exactly if what it receives keeps
the rule. -/
theorem WatchInv.next {h : Host} {w : Watched} (inv : WatchInv w) (p : Polled) :
    (∀ seg ∈ w.freed ++ (h.frees w.loop p).toList, seg.Bare) ↔
      Justified AckFirst (w.heard ++ (h.hears w.loop p).toList) := by
  rw [List.forall_mem_append, inv.bare, Host.frees_eq]
  cases h.hears w.loop p with
  | none => simp
  | some e =>
    rw [Option.bind_some, Option.toList_some, justified_snoc, inv.registers.ackFirst_iff]
    simp

theorem WatchInv.step {h : Host} {w w' : Watched} {p : Polled} (inv : WatchInv w)
    (step : h.WatchStep w p w') : WatchInv w' := by
  obtain ⟨loop, iterated, step⟩ := ok_of_bind step
  obtain rfl := Except.ok.inj step
  refine ⟨?_, inv.next p⟩
  rw [Host.doLoop_register iterated]
  cases h.hears w.loop p with
  | none =>
    rw [Option.toList_none, List.append_nil]
    exact inv.registers
  | some e => exact inv.registers.snoc e

/-- **The suppressed acknowledgment.** In every run, whatever arrives and in
whatever order, up to and including an iteration that may not come to its end:
the segments that are freed instead of being passed on carry no payload and no
FIN exactly if from every awaited port the first segment with relative numbers
1 and 1 to arrive is a bare acknowledgment. -/
theorem suppressed_bare_iff {h : Host} {conn : Conn} {config : CtcpConfig} {ps : List Polled}
    {w : Watched} (run : Run h.WatchStep ⟨h.start conn config, [], []⟩ ps w) (p : Polled) :
    (∀ seg ∈ w.freed ++ (h.frees w.loop p).toList, seg.Bare) ↔
      Justified AckFirst (w.heard ++ (h.hears w.loop p).toList) := by
  have start : WatchInv ⟨h.start conn config, [], []⟩ :=
    ⟨registers_nil, iff_of_true (List.forall_mem_nil _) justified_nil⟩
  exact (Run.invariant WatchInv start (fun inv step => inv.step step) run).next p

/-- A packet of a client at port 1, whose two numbers are the same. -/
def fromClient (number flags : UInt8) (data : List UInt8) : Polled :=
  { Polled.idle with
    packet := some ([0x45, 0, 0, UInt8.ofNat (40 + data.length)] ++ List.replicate 16 0 ++
      [0, 1, 0, 80, 0, 0, 0, number, 0, 0, 0, number, 0x50, flags, 5, 0xa0, 0, 0, 0, 0] ++ data) }

/-- The handshake acknowledgment arrives, and then the first byte. -/
theorem suppressed_bare_iff_handshake :
    ∃ w, [fromClient 0 2 [], fromClient 1 16 []].foldlM (Host.plain true).watch
        ⟨(Host.plain true).start ⟨0, 0, 0, 0⟩ ⟨1440, 200⟩, [], []⟩ = .ok w ∧
      ((∀ seg ∈ w.freed ++ ((Host.plain true).frees w.loop (fromClient 1 16 [97])).toList,
          seg.Bare) ↔
        Justified AckFirst
          (w.heard ++ ((Host.plain true).hears w.loop (fromClient 1 16 [97])).toList)) := by
  have returns : ([fromClient 0 2 [], fromClient 1 16 []].foldlM (Host.plain true).watch
      ⟨(Host.plain true).start ⟨0, 0, 0, 0⟩ ⟨1440, 200⟩, [], []⟩).isOk = true := by
    decide +kernel
  obtain ⟨w, hw⟩ := exists_of_isOk returns
  exact ⟨w, hw, suppressed_bare_iff (run_foldlM_ok hw) _⟩

/-- The acknowledgment is lost, and the first byte is freed in its place. -/
theorem first_byte_freed :
    ¬ ∀ (ps : List Polled) (w : Watched),
      Run (Host.plain true).WatchStep
          ⟨(Host.plain true).start ⟨0, 0, 0, 0⟩ ⟨1440, 200⟩, [], []⟩ ps w →
        ∀ seg ∈ w.freed, seg.Bare := by
  intro general
  let watched := [fromClient 0 2 [], fromClient 1 16 [97]].foldlM (Host.plain true).watch
    ⟨(Host.plain true).start ⟨0, 0, 0, 0⟩ ⟨1440, 200⟩, [], []⟩
  have freed : watched.map (fun w => w.freed.map CtcpSegment.data) = .ok [[97]] := by
    decide +kernel
  cases run : watched with
  | error e =>
    rw [run] at freed
    cases freed
  | ok w =>
    rw [run] at freed
    have freed : w.freed.map CtcpSegment.data = [[97]] := Except.ok.inj freed
    obtain ⟨seg, mem, data⟩ := List.mem_map.mp (freed ▸ List.mem_singleton_self [97])
    have bare := (general _ w (run_foldlM_ok run) seg mem).1
    rw [bare] at data
    exact absurd data (by decide)

end NetLabs.Ctcp
